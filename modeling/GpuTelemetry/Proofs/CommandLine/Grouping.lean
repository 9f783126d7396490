import GpuTelemetry.CommandLine.Options
import GpuTelemetry.Proofs.Lookup
import Mathlib.Data.List.Induction
import Mathlib.Data.List.Nodup
/-!
How a command line falls into groups. From the left, a token that is no flag stands for itself, and a flag
takes as many of the tokens behind it as it has values, whatever they look like. There is at most one way
to split a command line so, and reading finds it: it fails only where a flag at the end is short of values
or a required flag heads no group, and what it keeps for a flag are the values of the last group it heads.
-/

namespace GpuTelemetry.CommandLine

variable {κ : Type}

inductive Group (κ : Type) where
  | passed (token : Text)
  | given (key : κ) (flag : Flag) (values : List Text)

namespace Group

def tokens : Group κ → List Text
  | .passed token => [token]
  | .given _ flag values => flag.name :: values

/-- A token that is no flag, or a flag with as many values as it takes. -/
def Of (o : Options κ) : Group κ → Prop
  | .passed token => ∀ f ∈ o.flags, f.2.name ≠ token
  | .given key flag values => (key, flag) ∈ o.flags ∧ values.length = flag.arity

instance [DecidableEq κ] (o : Options κ) : DecidablePred (Of o)
  | .passed token => inferInstanceAs (Decidable (∀ f ∈ o.flags, f.2.name ≠ token))
  | .given key flag values =>
    inferInstanceAs (Decidable ((key, flag) ∈ o.flags ∧ values.length = flag.arity))

def HeadedBy (k : κ) (g : Group κ) : Prop := ∃ flag values, g = .given k flag values

end Group

structure Options.Distinct (o : Options κ) : Prop where
  keys : (o.flags.map (·.1)).Nodup
  names : (o.flags.map (·.2.name)).Nodup

structure Options.Splits (o : Options κ) (tokens : List Text) (gs : List (Group κ)) : Prop where
  groups : ∀ g ∈ gs, g.Of o
  flatten : gs.flatMap Group.tokens = tokens

def Options.Complete (o : Options κ) (gs : List (Group κ)) : Prop :=
  ∀ f ∈ o.flags, f.2.required = true → ∃ g ∈ gs, g.HeadedBy f.1

def LastGiven (gs : List (Group κ)) (k : κ) (vs : List Text) : Prop :=
  ∃ before flag after, gs = before ++ Group.given k flag vs :: after ∧
    ∀ g ∈ after, ¬ g.HeadedBy k

variable {o : Options κ} {gs : List (Group κ)} {g : Group κ} {k : κ} {f : Flag} {token : Text}
  {tokens rest vs : List Text}

/-! ### Flags -/

theorem flag?_eq_none_iff : o.flag? token = none ↔ ∀ f ∈ o.flags, f.2.name ≠ token := by
  simp [Options.flag?, List.find?_eq_none]

theorem flag?_eq_some_iff (h : o.Distinct) :
    o.flag? token = some (k, f) ↔ (k, f) ∈ o.flags ∧ f.name = token := by
  constructor
  · intro hfind
    exact ⟨List.mem_of_find?_eq_some hfind, by simpa using List.find?_some hfind⟩
  · rintro ⟨hmem, rfl⟩
    obtain ⟨found, hfound⟩ : ∃ found, o.flag? f.name = some found := by
      apply Option.ne_none_iff_exists'.1
      intro hnone
      exact flag?_eq_none_iff.1 hnone (k, f) hmem rfl
    have hname : found.2.name = f.name := by simpa using List.find?_some hfound
    -- no other flag has the name
    rw [hfound, List.inj_on_of_nodup_map h.names (List.mem_of_find?_eq_some hfound) hmem hname]

/-! ### The groups of a command line -/

theorem Options.Splits.nil : o.Splits [] [] := ⟨nofun, rfl⟩

theorem Options.Splits.cons (hg : g.Of o) (h : o.Splits rest gs) :
    o.Splits (g.tokens ++ rest) (g :: gs) where
  groups := List.forall_mem_cons.2 ⟨hg, h.groups⟩
  flatten := by rw [List.flatMap_cons, h.flatten]

/-- Where a group begins, no other group can begin. -/
theorem Group.tokens_append_inj (h : o.Distinct) {g' : Group κ} {rest' : List Text} (hg : g.Of o)
    (hg' : g'.Of o) (heq : g.tokens ++ rest = g'.tokens ++ rest') : g = g' ∧ rest = rest' := by
  cases g with
  | passed token =>
    cases g' with
    | passed token' =>
      obtain ⟨rfl, rfl⟩ := List.cons.inj heq
      exact ⟨rfl, rfl⟩
    | given k' f' vs' => exact absurd (List.cons.inj heq).1.symm (hg (k', f') hg'.1)
  | given k f vs =>
    cases g' with
    | passed token' => exact absurd (List.cons.inj heq).1 (hg' (k, f) hg.1)
    | given k' f' vs' =>
      obtain ⟨hname, hvalues⟩ := List.cons.inj heq
      -- the name tells the flag, and the flag how many values it takes
      obtain ⟨rfl, rfl⟩ := Prod.mk.inj (List.inj_on_of_nodup_map h.names hg.1 hg'.1 hname)
      obtain ⟨rfl, rfl⟩ := List.append_inj hvalues (hg.2.trans hg'.2.symm)
      exact ⟨rfl, rfl⟩

/-- A command line falls into groups in one way at most. -/
theorem Options.Splits.unique (h : o.Distinct) {gs' : List (Group κ)} (hgs : o.Splits tokens gs)
    (hgs' : o.Splits tokens gs') : gs = gs' := by
  have hne (g : Group κ) : g.tokens ≠ [] := by cases g <;> exact nofun
  obtain ⟨hof, rfl⟩ := hgs
  obtain ⟨hof', heq⟩ := hgs'
  -- group by group: the first ones agree, and so do the tokens behind them
  induction gs generalizing gs' with
  | nil =>
    cases gs' with
    | nil => rfl
    | cons g' gs' => exact absurd (List.append_eq_nil_iff.1 heq).1 (hne g')
  | cons g gs ih =>
    rw [List.forall_mem_cons] at hof
    cases gs' with
    | nil => exact absurd (List.append_eq_nil_iff.1 heq.symm).1 (hne g)
    | cons g' gs' =>
      rw [List.forall_mem_cons] at hof'
      obtain ⟨rfl, hrest⟩ := Group.tokens_append_inj h hof'.1 hof.1 heq
      rw [ih hof.2 hof'.2 hrest]

/-! ### The last group of a flag -/

theorem lastGiven_snoc : LastGiven (gs ++ [g]) k vs ↔
    (∃ f, g = .given k f vs) ∨ ¬ g.HeadedBy k ∧ LastGiven gs k vs := by
  constructor
  · rintro ⟨before, f, after, heq, hafter⟩
    -- the last one given is the new group, or stands before it
    obtain rfl | ⟨after', g', rfl⟩ := List.eq_nil_or_concat after
    · obtain ⟨-, hg⟩ := List.append_inj' heq rfl
      exact Or.inl ⟨f, (List.cons.inj hg).1⟩
    · rw [List.concat_eq_append, ← List.cons_append, ← List.append_assoc] at heq
      obtain ⟨rfl, hg⟩ := List.append_inj' heq rfl
      obtain rfl := (List.cons.inj hg).1
      refine Or.inr ⟨hafter g (by simp), before, f, after', rfl, ?_⟩
      intro g' hg'
      exact hafter g' (by simp [hg'])
  · rintro (⟨f, rfl⟩ | ⟨hg, before, f, after, rfl, hafter⟩)
    · exact ⟨gs, f, [], rfl, nofun⟩
    · refine ⟨before, f, after ++ [g], by simp, ?_⟩
      rw [List.forall_mem_append, List.forall_mem_singleton]
      exact ⟨hafter, hg⟩

theorem exists_lastGiven_iff : (∃ vs, LastGiven gs k vs) ↔ ∃ g ∈ gs, g.HeadedBy k := by
  constructor
  · rintro ⟨vs, before, f, after, rfl, -⟩
    exact ⟨_, by simp, f, vs, rfl⟩
  · rintro ⟨g, hg, hheaded⟩
    induction gs using List.reverseRecOn with
    | nil => cases hg
    | append_singleton gs last ih =>
      by_cases hlast : last.HeadedBy k
      · obtain ⟨f, vs, rfl⟩ := hlast
        exact ⟨vs, lastGiven_snoc.2 (Or.inl ⟨f, rfl⟩)⟩
      · have hne : g ≠ last := by
          rintro rfl
          exact hlast hheaded
        obtain ⟨vs, hvs⟩ := ih (by simpa [hne] using hg)
        exact ⟨vs, lastGiven_snoc.2 (Or.inr ⟨hlast, hvs⟩)⟩

/-! ### Reading -/

section Reading

variable [DecidableEq κ] {start : Given κ}

/-- A value that is put under a key is found there, and all others are as they were. -/
theorem lookup_setKey {α : Type} {v : α} {j : κ} {xs : List (κ × α)} :
    (setKey k v xs).lookup j = if j = k then some v else xs.lookup j := by
  unfold setKey
  split
  · rename_i hany
    obtain ⟨x, hx, hkey⟩ := List.any_eq_true.1 hany
    have hsome : (xs.lookup k).isSome = true :=
      List.lookup_isSome_iff.2 ⟨x, hx, beq_iff_eq.2 (of_decide_eq_true hkey).symm⟩
    obtain ⟨w, hw⟩ := Option.isSome_iff_exists.1 hsome
    rw [lookup_replace, hw, Option.map_some]
  · exact lookup_cons_eq

theorem Given.values?_set {g : Given κ} {j : κ} :
    (g.set k vs).values? j = if j = k then some vs else g.values? j :=
  lookup_setKey

theorem keys_setKey {α : Type} {v : α} {xs : List (κ × α)} :
    (setKey k v xs).map (·.1) = if k ∈ xs.map (·.1) then xs.map (·.1) else k :: xs.map (·.1) := by
  have hmem : k ∈ xs.map (·.1) ↔ xs.any (·.1 = k) = true := by simp
  unfold setKey
  by_cases hk : k ∈ xs.map (·.1)
  · rw [if_pos (hmem.1 hk), if_pos hk, map_fst_replace]
  · rw [if_neg (hk ∘ hmem.2), if_neg hk, List.map_cons]

/-- Definitions that are put under their keys differ in their keys, so only their names can clash. -/
theorem distinct_ofList {fs : List (κ × Flag)}
    (h : ((Options.ofList fs).flags.map (·.2.name)).Nodup) : (Options.ofList fs).Distinct := by
  refine ⟨?_, h⟩
  clear h
  induction fs using List.reverseRecOn with
  | nil => exact List.nodup_nil
  | append_singleton fs f ih =>
    have hsnoc : (Options.ofList (fs ++ [f])).flags = setKey f.1 f.2 (Options.ofList fs).flags := by
      simp [Options.ofList, List.foldl_append]
    rw [hsnoc, keys_setKey]
    split
    · exact ih
    · rename_i hnew
      exact List.nodup_cons.2 ⟨hnew, ih⟩

def Given.enter (given : Given κ) : Group κ → Given κ
  | .passed _ => given
  | .given key _ values => given.set key values

/-- One turn of the scan takes the first group. -/
theorem scan_cons (h : o.Distinct) (hg : g.Of o) :
    o.scan start (g.tokens ++ rest) = o.scan (start.enter g) rest := by
  cases g with
  | passed token =>
    rw [Group.tokens, List.singleton_append, Options.scan, flag?_eq_none_iff.2 hg, Given.enter]
  | given k f vs =>
    obtain ⟨hmem, hlength⟩ := hg
    have henough : ¬ (vs ++ rest).length < f.arity := by
      rw [List.length_append, hlength]
      omega
    rw [Group.tokens, List.cons_append, Options.scan, (flag?_eq_some_iff h).2 ⟨hmem, rfl⟩]
    dsimp only
    rw [if_neg henough, Given.enter, ← hlength, List.take_left, List.drop_left]

/-- A command line that falls into groups is scanned to its end. -/
theorem scan_of_splits (h : o.Distinct) (hgs : o.Splits tokens gs) :
    o.scan start tokens = (none, gs.foldl Given.enter start) := by
  obtain ⟨hof, rfl⟩ := hgs
  induction gs generalizing start with
  | nil => rw [List.flatMap_nil, Options.scan, List.foldl_nil]
  | cons g gs ih =>
    rw [List.forall_mem_cons] at hof
    rw [List.flatMap_cons, scan_cons h hof.1, ih hof.2, List.foldl_cons]

/-- A command line falls into groups, up to a flag that is short of values if there is one, and that one
is then reported. -/
theorem splits_or_short (o : Options κ) (start : Given κ) (tokens : List Text) :
    (∃ gs, o.Splits tokens gs) ∨
    ∃ before gs k f rest, o.Splits before gs ∧ (k, f) ∈ o.flags ∧ rest.length < f.arity ∧
      tokens = before ++ f.name :: rest ∧
      (o.scan start tokens).1 = some (.missingValues f.name f.arity) := by
  -- the cases are those of the scan: nothing left, no flag, too few values, a whole group
  fun_induction Options.scan o start tokens with
  | case1 start => exact Or.inl ⟨[], .nil⟩
  | case2 start token rest hflag ih =>
    have hg : (Group.passed token).Of o := flag?_eq_none_iff.1 hflag
    obtain ⟨gs, hgs⟩ | ⟨before, gs, k, f, rest', hgs, hmem, hshort, rfl, herror⟩ := ih
    · exact Or.inl ⟨_, hgs.cons hg⟩
    · exact Or.inr ⟨_, _, k, f, rest', hgs.cons hg, hmem, hshort, rfl, herror⟩
  | case3 start token rest k f hflag hshort =>
    obtain rfl : f.name = token := by simpa using List.find?_some hflag
    exact Or.inr ⟨[], [], k, f, rest, .nil, List.mem_of_find?_eq_some hflag, hshort, rfl, rfl⟩
  | case4 start token rest k f hflag henough ih =>
    obtain rfl : f.name = token := by simpa using List.find?_some hflag
    have hg : (Group.given k f (rest.take f.arity)).Of o :=
      ⟨List.mem_of_find?_eq_some hflag, List.length_take_of_le (Nat.not_lt.1 henough)⟩
    have htokens (tail : List Text) (htail : rest.drop f.arity = tail) :
        f.name :: rest = (Group.given k f (rest.take f.arity)).tokens ++ tail := by
      rw [Group.tokens, List.cons_append, ← htail, List.take_append_drop]
    obtain ⟨gs, hgs⟩ | ⟨before, gs, k', f', rest', hgs, hmem, hshort, hrest, herror⟩ := ih
    · rw [htokens _ rfl]
      exact Or.inl ⟨_, hgs.cons hg⟩
    · rw [htokens _ hrest, ← List.append_assoc]
      exact Or.inr ⟨_, _, k', f', rest', hgs.cons hg, hmem, hshort, rfl, herror⟩

/-! ### What is kept -/

/-- A group gives values to the flag that heads it, and leaves those of the others. -/
theorem values?_enter {given : Given κ} : (given.enter g).values? k = some vs ↔
    (∃ f, g = .given k f vs) ∨ ¬ g.HeadedBy k ∧ given.values? k = some vs := by
  cases g with
  | passed token => simp [Given.enter, Group.HeadedBy]
  | given j f ws =>
    rw [Given.enter, Given.values?_set]
    by_cases hj : k = j
    · simp [hj, Group.HeadedBy]
    · simp [hj, Ne.symm hj, Group.HeadedBy]

/-- Of all the values of a flag the last are kept. -/
theorem values?_foldl_enter :
    (gs.foldl Given.enter ({} : Given κ)).values? k = some vs ↔ LastGiven gs k vs := by
  induction gs using List.reverseRecOn generalizing vs with
  | nil => simp [Given.values?, LastGiven]
  | append_singleton gs g ih =>
    rw [List.foldl_append, List.foldl_cons, List.foldl_nil, values?_enter, lastGiven_snoc, ih]

theorem has_foldl_enter :
    (gs.foldl Given.enter ({} : Given κ)).has k = true ↔ ∃ g ∈ gs, g.HeadedBy k := by
  rw [Given.has, Option.isSome_iff_exists, ← exists_lastGiven_iff]
  exact exists_congr fun vs => values?_foldl_enter

/-- No required flag is missing if each of them heads a group. -/
theorem missing?_eq_none :
    o.missing? (gs.foldl Given.enter ({} : Given κ)) = none ↔ o.Complete gs := by
  simp only [Options.missing?, Option.map_eq_none_iff, List.find?_eq_none, Options.Complete,
    ← has_foldl_enter]
  simp

/-- The options are those of the groups; it is an error only if a required flag is missing. -/
theorem parse_of_splits (h : o.Distinct) (hgs : o.Splits tokens gs) :
    (o.parse tokens).2 = gs.foldl Given.enter {} ∧
    ((o.parse tokens).1 = none ↔ o.Complete gs) := by
  rw [Options.parse, scan_of_splits h hgs]
  refine ⟨rfl, ?_⟩
  rw [← missing?_eq_none]
  exact Option.map_eq_none_iff

/-- **Reading a command line recovers its groups.** It succeeds exactly where the tokens fall into groups
among which each required flag heads one. There is no other way to split them, a flag is kept exactly if
it heads a group, and its values are those of the last such group. -/
theorem parse_recovers_groups (h : o.Distinct) :
    (∀ tokens, (o.parse tokens).1 = none ↔ ∃ gs, o.Splits tokens gs ∧ o.Complete gs) ∧
    ∀ tokens gs, o.Splits tokens gs →
      (∀ gs', o.Splits tokens gs' → gs' = gs) ∧
      (∀ k, (o.parse tokens).2.has k = true ↔ ∃ g ∈ gs, g.HeadedBy k) ∧
      ∀ k vs, (o.parse tokens).2.values? k = some vs ↔ LastGiven gs k vs := by
  constructor
  · intro tokens
    constructor
    · intro hnone
      obtain ⟨gs, hgs⟩ | ⟨_, _, _, _, _, _, _, _, _, herror⟩ := splits_or_short o {} tokens
      · exact ⟨gs, hgs, (parse_of_splits h hgs).2.1 hnone⟩
      · -- a flag that is short of values is an error of the whole
        generalize hscan : o.scan {} tokens = result at herror
        obtain ⟨error, given⟩ := result
        obtain rfl : error = some _ := herror
        rw [Options.parse, hscan] at hnone
        cases hnone
    · rintro ⟨gs, hgs, hcomplete⟩
      exact (parse_of_splits h hgs).2.2 hcomplete
  · intro tokens gs hgs
    rw [(parse_of_splits h hgs).1]
    exact ⟨fun gs' hgs' => hgs'.unique h hgs, fun k => has_foldl_enter, fun k vs => values?_foldl_enter⟩

end Reading

def twoFlags : Options UInt8 :=
  .ofList [(1, { name := utf8 "--out", arity := 2, required := true }),
    (2, { name := utf8 "-v", arity := 0 })]

def repeatedGroups : List (Group UInt8) :=
  [.passed (utf8 "run"),
   .given 1 { name := utf8 "--out", arity := 2, required := true } [utf8 "-v", utf8 "--out"],
   .given 2 { name := utf8 "-v", arity := 0 } [],
   .given 1 { name := utf8 "--out", arity := 2, required := true } [utf8 "a", utf8 "-v"]]

/-- A required flag of two values is given twice, once with a flag among its values; the last group counts.
-/
theorem parse_recovers_groups_of_repeated : twoFlags.Distinct ∧
    twoFlags.Splits (repeatedGroups.flatMap Group.tokens) repeatedGroups ∧
    (twoFlags.parse (repeatedGroups.flatMap Group.tokens)).1 = none ∧
    (twoFlags.parse (repeatedGroups.flatMap Group.tokens)).2.values? 1 =
      some [utf8 "a", utf8 "-v"] := by
  have hdistinct : twoFlags.Distinct := distinct_ofList (by decide)
  have hsplits : twoFlags.Splits (repeatedGroups.flatMap Group.tokens) repeatedGroups :=
    ⟨by decide, rfl⟩
  obtain ⟨hok, hkept⟩ := parse_recovers_groups hdistinct
  obtain ⟨-, -, hvalues⟩ := hkept _ _ hsplits
  refine ⟨hdistinct, hsplits, (hok _).2 ⟨_, hsplits, ?_⟩, (hvalues _ _).2 ?_⟩
  · have hrequired : ∀ f ∈ twoFlags.flags, f.2.required = true → f.1 = 1 := by decide
    intro f hf hrequires
    rw [hrequired f hf hrequires]
    exact ⟨_, List.mem_cons_of_mem _ List.mem_cons_self, _, _, rfl⟩
  · exact ⟨repeatedGroups.take 3, _, [], rfl, nofun⟩

end GpuTelemetry.CommandLine
