import GpuTelemetry.Proofs.Text.Pieces

namespace GpuTelemetry.Text

structure LongestRun (Stands : Text → Text → Prop) (s r : Text) : Prop where
  stands : Stands r s
  blank : ∀ b ∈ r, isBlank b = true
  longest : ∀ t, Stands t s → (∀ b ∈ t, isBlank b = true) → t.length ≤ r.length

/-- `m` is what is left of `s` between the longest run of blanks in front of it and the longest one behind
the rest. -/
def Trimmed (s m : Text) : Prop :=
  ∃ left right, s = left ++ (m ++ right) ∧ LongestRun List.IsPrefix s left ∧
    LongestRun List.IsSuffix (m ++ right) right

structure Cut (d : UInt8) (s : Text) (ps : List Text) : Prop where
  ne_nil : ps ≠ []
  not_mem : ∀ p ∈ ps, d ∉ p
  joined : sep [d] ps = s

structure FirstFrom (d : UInt8) (s : Text) (start place : ℕ) : Prop where
  le : start ≤ place
  found : s[place]? = some d
  first : ∀ i, start ≤ i → i < place → s[i]? ≠ some d

/-- Fields are cut from `start` on, one in each turn: up to the next `d`, and on behind it, or all that is
left of the text if there is none. -/
inductive Scans (d : UInt8) (s : Text) : ℕ → ℕ → List Text → Prop where
  | last {start : ℕ} : start ≤ s.length → (∀ i, start ≤ i → s[i]? ≠ some d) →
      Scans d s start 1 [trim (s.drop start)]
  | next {start place turns : ℕ} {out : List Text} : FirstFrom d s start place →
      Scans d s (place + 1) turns out →
      Scans d s start (turns + 1) (trim ((s.drop start).take (place - start)) :: out)

def Padded (d : UInt8) (p q : Text) : Prop :=
  ∃ left right : Text, q = left ++ (p ++ right) ∧ ∀ b ∈ left ++ right, isBlank b = true ∧ b ≠ d

variable {d : UInt8} {s t r m p q : Text} {ps : List Text} {start place turns : ℕ}
  {out : List Text}

/-! ### Trimming -/

/-- A run of blanks in front is the longest one if no blank follows it. -/
theorem longestRun_prefix : LongestRun List.IsPrefix (r ++ t) r ↔
    (∀ b ∈ r, isBlank b = true) ∧ ∀ b ∈ t.head?, isBlank b = false := by
  constructor
  · rintro ⟨-, hblank, hlongest⟩
    refine ⟨hblank, fun b hb => ?_⟩
    by_contra hnot
    obtain ⟨t', rfl⟩ : ∃ t', t = b :: t' := List.head?_eq_some_iff.1 hb
    -- with the blank that follows, the run would be longer
    have hlonger := hlongest (r ++ [b]) ⟨t', by simp⟩ (by
      rw [List.forall_mem_append, List.forall_mem_singleton]
      exact ⟨hblank, by simpa using hnot⟩)
    rw [List.length_append, List.length_singleton] at hlonger
    omega
  · rintro ⟨hblank, hhead⟩
    refine ⟨List.prefix_append r t, hblank, fun u hu hblanku => ?_⟩
    by_contra hlt
    obtain ⟨c, v, hv⟩ : ∃ c v, u = r ++ c :: v := by
      obtain ⟨v, rfl⟩ := List.prefix_of_prefix_length_le (List.prefix_append r t) hu (by omega)
      cases v with
      | nil => simp at hlt
      | cons c v => exact ⟨c, v, rfl⟩
    subst hv
    have hnext : t.head? = some c := by
      obtain ⟨w, hw⟩ := hu
      rw [List.append_assoc, List.append_cancel_left_eq] at hw
      rw [← hw]
      rfl
    have hc := hhead c hnext
    rw [hblanku c (by simp)] at hc
    cases hc

theorem longestRun_suffix : LongestRun List.IsSuffix (t ++ r) r ↔
    (∀ b ∈ r, isBlank b = true) ∧ ∀ b ∈ t.getLast?, isBlank b = false := by
  -- read from the end it is a run in front
  have hback : LongestRun List.IsSuffix (t ++ r) r ↔
      LongestRun List.IsPrefix (r.reverse ++ t.reverse) r.reverse := by
    rw [← List.reverse_append]
    constructor
    · rintro ⟨hstands, hblank, hlongest⟩
      refine ⟨List.reverse_prefix.2 hstands, by simpa using hblank, fun u hu hblanku => ?_⟩
      have hle := hlongest u.reverse (by rwa [← List.reverse_prefix, List.reverse_reverse])
        (by simpa using hblanku)
      simpa using hle
    · rintro ⟨hstands, hblank, hlongest⟩
      refine ⟨List.reverse_prefix.1 hstands, by simpa using hblank, fun u hu hblanku => ?_⟩
      have hle := hlongest u.reverse (List.reverse_prefix.2 hu) (by simpa using hblanku)
      simpa using hle
  rw [hback, longestRun_prefix, List.head?_reverse]
  simp only [List.mem_reverse]

/-- Longest runs of blanks at both ends: nothing is left to strip. -/
theorem trimmed_iff_stripped : Trimmed s m ↔ Stripped s m := by
  constructor
  · rintro ⟨left, right, rfl, hleft, hright⟩
    obtain ⟨hleft, hhead⟩ := longestRun_prefix.1 hleft
    obtain ⟨hright, hlast⟩ := longestRun_suffix.1 hright
    refine ⟨⟨left, right, rfl, List.forall_mem_append.2 ⟨hleft, hright⟩⟩, fun b hb => ?_, hlast⟩
    apply hhead b
    rw [List.head?_append, Option.mem_def.1 hb]
    rfl
  · rintro ⟨⟨left, right, rfl, hblank⟩, hhead, hlast⟩
    rw [List.forall_mem_append] at hblank
    obtain ⟨hleft, hright⟩ := hblank
    rcases eq_or_ne m [] with rfl | hne
    · -- a text of blanks only is one run, in front of nothing
      refine ⟨left ++ right, [], by simp, ?_, longestRun_suffix.2 ⟨nofun, nofun⟩⟩
      have hall := longestRun_prefix (r := left ++ right) (t := [])
      rw [List.append_nil] at hall
      exact hall.2 ⟨List.forall_mem_append.2 ⟨hleft, hright⟩, nofun⟩
    · refine ⟨left, right, rfl, longestRun_prefix.2 ⟨hleft, ?_⟩, longestRun_suffix.2 ⟨hright, hlast⟩⟩
      obtain ⟨b, m', rfl⟩ := List.exists_cons_of_ne_nil hne
      exact hhead

/-- What trimming leaves is determined by the runs of blanks at both ends. -/
theorem trim_iff : trim s = m ↔ Trimmed s m := by
  rw [trimmed_iff_stripped]
  constructor
  · rintro rfl
    exact stripped_trim s
  · exact trim_of_stripped

/-- Of a trimmed text nothing is taken away. -/
theorem trim_trim (s : Text) : trim (trim s) = trim s := by
  obtain ⟨-, hhead, hlast⟩ := stripped_trim s
  exact trim_of_stripped ⟨⟨[], [], by simp, nofun⟩, hhead, hlast⟩

theorem Padded.trim_eq (h : Padded d p q) : trim q = trim p := by
  obtain ⟨left, right, rfl, hpad⟩ := h
  obtain ⟨⟨front, back, hp, hblank⟩, hhead, hlast⟩ := stripped_trim p
  apply trim_of_stripped
  refine ⟨⟨left ++ front, back ++ right, ?_, ?_⟩, hhead, hlast⟩
  · conv_lhs => rw [hp]
    simp only [List.append_assoc]
  · intro b hb
    have hmem : b ∈ left ++ right ∨ b ∈ front ++ back := by
      simp only [List.mem_append] at hb ⊢
      tauto
    rcases hmem with hb | hb
    · exact (hpad b hb).1
    · exact hblank b hb

/-! ### Pieces -/

/-- A text has no `d` in it, or it is a piece, a `d` and a text with fewer of them. -/
@[elab_as_elim]
theorem piecewise_induction {P : Text → Prop} (d : UInt8) (last : ∀ s, d ∉ s → P s)
    (next : ∀ p t, d ∉ p → P t → P (p ++ d :: t)) (s : Text) : P s := by
  induction hn : s.length using Nat.strong_induction_on generalizing s with
  | h n ih =>
    by_cases hd : d ∈ s
    · obtain ⟨p, t, rfl, hp⟩ := List.eq_append_cons_of_mem hd
      apply next p t hp
      apply ih t.length ?_ t rfl
      rw [← hn, List.length_append, List.length_cons]
      omega
    · exact last s hd

theorem pieces_append_cons (hp : d ∉ p) (t : Text) : pieces d (p ++ d :: t) = p :: pieces d t := by
  rw [pieces_append, pieces_of_not_mem hp]
  rfl

/-- There is one piece more than there are cuts. -/
theorem length_pieces (d : UInt8) (s : Text) : (pieces d s).length = s.count d + 1 := by
  induction s using piecewise_induction d with
  | last s hs => rw [pieces_of_not_mem hs, List.count_eq_zero.2 hs]; rfl
  | next p t hp ih =>
    rw [pieces_append_cons hp, List.length_cons, ih, List.count_append, List.count_eq_zero.2 hp,
      List.count_cons_self]
    omega

/-- The pieces are determined by what they are put together to. -/
theorem cut_iff : Cut d s ps ↔ pieces d s = ps := by
  rw [pieces_eq_splitOn]
  constructor
  · rintro ⟨hne, hnot, rfl⟩
    exact List.splitOn_intercalate d hnot hne
  · rintro rfl
    refine ⟨List.splitOn_ne_nil d s, ?_, List.intercalate_splitOn d⟩
    rw [← pieces_eq_splitOn]
    induction s using piecewise_induction d with
    | last s hs =>
      rw [pieces_of_not_mem hs]
      exact List.forall_mem_singleton.2 hs
    | next p t hp ih =>
      rw [pieces_append_cons hp]
      exact List.forall_mem_cons.2 ⟨hp, ih⟩

theorem Padded.not_mem (h : Padded d p q) (hp : d ∉ p) : d ∉ q := by
  obtain ⟨left, right, rfl, hpad⟩ := h
  intro hd
  have hmem : d ∈ left ++ right ∨ d ∈ p := by
    simp only [List.mem_append] at hd ⊢
    tauto
  rcases hmem with hd | hd
  · exact (hpad d hd).2 rfl
  · exact hp hd

/-- Blanks around the pieces, if they are not cut at themselves, make no difference to the fields. -/
theorem fields_padded (hps : Cut d s ps) {qs : List Text} (h : List.Forall₂ (Padded d) ps qs) :
    fields d (sep [d] qs) = fields d s := by
  obtain ⟨hne, hnot, hjoined⟩ := hps
  -- padding keeps the pieces apart and trims away
  have hqs : (∀ q ∈ qs, d ∉ q) ∧ qs.map trim = ps.map trim := by
    clear hne hjoined
    induction h with
    | nil => exact ⟨nofun, rfl⟩
    | cons hpad _ ih =>
      obtain ⟨hp, hrest⟩ := List.forall_mem_cons.1 hnot
      obtain ⟨hnone, htrim⟩ := ih hrest
      refine ⟨List.forall_mem_cons.2 ⟨hpad.not_mem hp, hnone⟩, ?_⟩
      rw [List.map_cons, List.map_cons, hpad.trim_eq, htrim]
  have hcut : Cut d (sep [d] qs) qs := by
    refine ⟨?_, hqs.1, rfl⟩
    rintro rfl
    exact hne (List.forall₂_nil_right_iff.1 h)
  rw [fields, fields, cut_iff.1 hcut, cut_iff.1 ⟨hne, hnot, hjoined⟩, hqs.2]

/-! ### Place by place -/

/-- Behind `start` stand a piece, the `d` that is found and the rest. -/
theorem FirstFrom.drop_eq (h : FirstFrom d s start place) :
    s.drop start = (s.drop start).take (place - start) ++ d :: s.drop (place + 1) ∧
      d ∉ (s.drop start).take (place - start) := by
  obtain ⟨hle, hfound, hfirst⟩ := h
  obtain ⟨hlt, hplace⟩ := List.getElem?_eq_some_iff.1 hfound
  constructor
  · have hrest : (s.drop start).drop (place - start) = d :: s.drop (place + 1) := by
      rw [List.drop_drop, Nat.add_sub_cancel' hle, List.drop_eq_getElem_cons hlt, hplace]
    rw [← hrest, List.take_append_drop]
  · intro hd
    obtain ⟨i, hi⟩ := List.mem_iff_getElem?.1 hd
    rw [List.getElem?_take] at hi
    split at hi
    · rw [List.getElem?_drop] at hi
      exact hfirst (start + i) (by omega) (by omega) hi
    · cases hi

/-- The `d` behind a piece without one is the first that is found. -/
theorem firstFrom_of_drop (h : s.drop start = p ++ d :: t) (hp : d ∉ p) :
    FirstFrom d s start (start + p.length) ∧ s.drop (start + p.length + 1) = t := by
  have hget (i : ℕ) : s[start + i]? = (p ++ d :: t)[i]? := by rw [← h, List.getElem?_drop]
  constructor
  · refine ⟨Nat.le_add_right _ _, ?_, fun i hi hlt heq => ?_⟩
    · rw [hget, List.getElem?_append_right (Nat.le_refl _), Nat.sub_self]
      rfl
    · obtain ⟨j, rfl⟩ := Nat.exists_eq_add_of_le hi
      rw [hget, List.getElem?_append_left (by omega)] at heq
      exact hp (List.mem_of_getElem? heq)
  · have hdrop := congrArg (List.drop (p.length + 1)) h
    rw [List.drop_drop, ← Nat.add_assoc] at hdrop
    rw [hdrop]
    simp

theorem drop_of_none_from : (∀ i, start ≤ i → s[i]? ≠ some d) ↔ d ∉ s.drop start := by
  rw [List.mem_iff_getElem?, not_exists]
  constructor
  · intro h i hi
    rw [List.getElem?_drop] at hi
    exact h _ (Nat.le_add_right _ _) hi
  · intro h i hi heq
    obtain ⟨j, rfl⟩ := Nat.exists_eq_add_of_le hi
    rw [← List.getElem?_drop] at heq
    exact h j heq

/-- Cut place by place a text gives its fields, in as many turns as there are fields. -/
theorem scans_iff : Scans d s start turns out ↔
    start ≤ s.length ∧ turns = (s.drop start).count d + 1 ∧ out = fields d (s.drop start) := by
  constructor
  · intro h
    induction h with
    | last hle hnone =>
      have hd := drop_of_none_from.1 hnone
      refine ⟨hle, ?_, ?_⟩
      · rw [List.count_eq_zero.2 hd]
      · rw [fields, pieces_of_not_mem hd]
        rfl
    | @next start place turns out hfirst _ ih =>
      obtain ⟨hdrop, hpiece⟩ := hfirst.drop_eq
      obtain ⟨hle, hturns, hout⟩ := ih
      have hbefore := hfirst.le
      -- the text from `start` on is a piece, the cut, and the text from which the scan goes on
      generalize (s.drop start).take (place - start) = p at hdrop hpiece
      refine ⟨by omega, ?_, ?_⟩
      · rw [hdrop, List.count_append, List.count_eq_zero.2 hpiece, List.count_cons_self, hturns]
        omega
      · rw [hdrop, fields, pieces_append_cons hpiece, List.map_cons, hout]
        rfl
  · rintro ⟨hle, rfl, rfl⟩
    generalize ht : s.drop start = t
    -- back, the induction is on the rest of the text, piece by piece
    induction t using piecewise_induction d generalizing start with
    | last t hd =>
      rw [List.count_eq_zero.2 hd, fields, pieces_of_not_mem hd, List.map_singleton, ← ht]
      rw [← ht] at hd
      exact .last hle (drop_of_none_from.2 hd)
    | next p t hp ih =>
      obtain ⟨hfirst, hrest⟩ := firstFrom_of_drop ht hp
      have hend : start + p.length + 1 ≤ s.length := by
        have hlength := congrArg List.length ht
        rw [List.length_drop, List.length_append, List.length_cons] at hlength
        omega
      have hpiece : (s.drop start).take (start + p.length - start) = p := by
        rw [ht, Nat.add_sub_cancel_left, List.take_left]
      have hscan := Scans.next hfirst (ih hend hrest)
      rw [hpiece] at hscan
      rw [List.count_append, List.count_eq_zero.2 hp, List.count_cons_self, Nat.zero_add, fields,
        pieces_append_cons hp]
      exact hscan

/-! ### Fields -/

/-- **A text as fields.** To trim is to take away the longest run of blanks in front and the longest one
behind the rest, and to do so again changes nothing. Cut from its beginning, place by place, a text gives its
fields and nothing else, in one turn more than there are places. There is one way only to see the text as
pieces without the byte, and the fields are the trimmed pieces, whatever other blanks stand around them. -/
theorem fields_of_pieces (d : UInt8) (s : Text) :
    (∀ m, trim s = m ↔ Trimmed s m) ∧ trim (trim s) = trim s ∧
    (∀ turns out, Scans d s 0 turns out ↔ turns = s.count d + 1 ∧ out = fields d s) ∧
    (fields d s).length = s.count d + 1 ∧
    ∃ ps, (∀ qs, Cut d s qs ↔ qs = ps) ∧ fields d s = ps.map trim ∧
      ∀ qs, List.Forall₂ (Padded d) ps qs → fields d (sep [d] qs) = fields d s := by
  have hcut : Cut d s (pieces d s) := cut_iff.2 rfl
  refine ⟨fun m => trim_iff, trim_trim s, fun turns out => ?_, ?_, pieces d s, fun qs => ?_, rfl,
    fun qs hqs => fields_padded hcut hqs⟩
  · rw [scans_iff, List.drop_zero, and_iff_right (Nat.zero_le _)]
  · rw [fields, List.length_map, length_pieces]
  · rw [cut_iff, eq_comm]

/-- The blanks that are cut at are not taken away, and there are empty fields between them. -/
example : fields 32 (utf8 " a  b\t") = [[], utf8 "a", [], utf8 "b"] := by decide +kernel

end GpuTelemetry.Text
