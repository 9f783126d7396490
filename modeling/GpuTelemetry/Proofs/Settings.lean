import GpuTelemetry.Proofs.Text.Spelling
import GpuTelemetry.Settings

namespace GpuTelemetry.Settings

open Text (Spells wordValue)

def Unsigned (t : Text) (n : ℕ) : Prop := Spells t false n ∧ n < 2 ^ 64

/-- The text has a minus sign behind a blank, and the number is what is left of `2 ^ 64`. -/
def CountedDown (t : Text) (n : ℕ) : Prop :=
  t.head? ≠ some 45 ∧ ∃ m, Spells t true m ∧ m < 2 ^ 64 ∧ n = (2 ^ 64 - m) % 2 ^ 64

def Taken (t : Text) (n : ℕ) : Prop := Unsigned t n ∨ CountedDown t n

def Holds (numeral : Text → ℕ → Prop) (env : Environment) (name : Text) (n : ℕ) : Prop :=
  ∃ t, env name = some t ∧ numeral t n

def Chosen {α : Type} (admissible : ℕ → Prop) (value : ℕ → α) (default setting : α) : Prop :=
  (∃ n, admissible n ∧ setting = value n) ∨ (∀ n, ¬ admissible n) ∧ setting = default

/-- The settings are those of the variables, each of one variable, with the texts read as numerals of
the given kind. -/
structure Follows (numeral : Text → ℕ → Prop) (env : Environment) (s : Settings) : Prop where
  ttl : Chosen (fun n => Holds numeral env ttlVariable n ∧ n ≤ 365 * 24 * 60 * 60 * 1000)
    (fun n => (n : ℤ)) 500 s.cache.ttl.toInt
  maxEntries : Chosen (Holds numeral env maxEntriesVariable) some none
    (s.cache.maxEntries.map UInt64.toNat)
  threads : Chosen (fun n => Holds numeral env threadsVariable n ∧ 1 ≤ n) id 2
    s.background.threads.toNat
  timeout : Chosen (fun n => Holds numeral env timeoutVariable n ∧ n ≤ 365 * 24 * 60 * 60 * 1000)
    (fun n => some (n : ℤ)) none (s.background.timeout.map Int64.toInt)

structure SetApart (env other : Environment) : Prop where
  ttl (h : env ttlVariable = other ttlVariable) :
    (ofEnvironment env).cache.ttl = (ofEnvironment other).cache.ttl
  maxEntries (h : env maxEntriesVariable = other maxEntriesVariable) :
    (ofEnvironment env).cache.maxEntries = (ofEnvironment other).cache.maxEntries
  threads (h : env threadsVariable = other threadsVariable) :
    (ofEnvironment env).background.threads = (ofEnvironment other).background.threads
  timeout (h : env timeoutVariable = other timeoutVariable) :
    (ofEnvironment env).background.timeout = (ofEnvironment other).background.timeout

def names : List Text := [ttlVariable, maxEntriesVariable, threadsVariable, timeoutVariable]

variable {t name : Text} {env : Environment} {v : UInt64} {n : ℕ}

/-! ### One variable -/

/-- The reader of numbers takes exactly these texts. -/
theorem unsigned?_eq_some : unsigned? t = some v ↔ Taken t v.toNat := by
  by_cases hhead : t.head? = some 45
  · have hnone : unsigned? t = none := by rw [unsigned?, if_pos hhead]
    rw [hnone]
    constructor
    · intro h
      cases h
    · rintro (⟨hspells, -⟩ | ⟨hne, -⟩)
      · exact absurd hhead hspells.head_ne
      · exact absurd hhead hne
  -- a minus in front has been refused, one behind a blank has not
  have hread : unsigned? t = (Text.readNumeral 10 t).bind fun m =>
      if m.rest.isEmpty && !m.overflows then some m.word else none := by
    rw [unsigned?, if_neg hhead]
    cases Text.readNumeral 10 t <;> rfl
  have hfits (negative : Bool) (n : ℕ) :
      (!(Text.Numeral.mk negative n []).overflows) = true ↔ n < 2 ^ 64 := by
    simp [Text.Numeral.overflows]
  rw [hread, Text.readWord_iff]
  constructor
  · rintro ⟨negative, n, hspells, hlt, hv⟩
    rw [hfits] at hlt
    rw [wordValue, if_neg (Nat.not_le.2 hlt)] at hv
    cases negative with
    | true => exact Or.inr ⟨hhead, n, hspells, hlt, hv⟩
    | false =>
      obtain rfl : v.toNat = n := hv
      exact Or.inl ⟨hspells, hlt⟩
  · rintro (⟨hspells, hlt⟩ | ⟨-, n, hspells, hlt, hv⟩)
    · exact ⟨false, v.toNat, hspells, (hfits _ _).2 hlt, (Text.wordValue_of_lt hlt).symm⟩
    · refine ⟨true, n, hspells, (hfits _ _).2 hlt, ?_⟩
      rw [hv, wordValue, if_neg (Nat.not_le.2 hlt), if_pos rfl]

theorem Taken.lt (h : Taken t n) : n < 2 ^ 64 := by
  obtain ⟨-, hlt⟩ | ⟨-, m, -, -, rfl⟩ := h
  · exact hlt
  · exact Nat.mod_lt _ (by decide)

/-- An empty variable is not reported, and sets nothing either. -/
theorem accepted_number : accepted (number env name) = (env name).bind unsigned? := by
  unfold number
  cases env name with
  | none => rfl
  | some t =>
    cases t with
    | nil => rfl
    | cons b r =>
      rw [Option.bind_some]
      dsimp only [List.isEmpty_cons]
      cases unsigned? (b :: r) <;> rfl

/-- A number is accepted if its variable holds a numeral of it. -/
theorem accepted_number_eq_some :
    accepted (number env name) = some v ↔ Holds Taken env name v.toNat := by
  rw [accepted_number, Option.bind_eq_some_iff]
  constructor
  · rintro ⟨t, henv, hread⟩
    exact ⟨t, henv, unsigned?_eq_some.1 hread⟩
  · rintro ⟨t, henv, htaken⟩
    exact ⟨t, henv, unsigned?_eq_some.2 htaken⟩

/-- A variable holds a number if that is the word read from it. -/
theorem holds_iff : Holds Taken env name n ↔
    ∃ v, accepted (number env name) = some v ∧ v.toNat = n := by
  constructor
  · intro h
    obtain ⟨t, -, htaken⟩ := id h
    have hword : (UInt64.ofNat n).toNat = n := UInt64.toNat_ofNat_of_lt' htaken.lt
    refine ⟨UInt64.ofNat n, ?_, hword⟩
    rwa [accepted_number_eq_some, hword]
  · rintro ⟨v, hv, rfl⟩
    exact accepted_number_eq_some.1 hv

theorem not_holds_of_none (h : accepted (number env name) = none) (n : ℕ) :
    ¬ Holds Taken env name n := by
  intro hn
  obtain ⟨v, hv, -⟩ := holds_iff.1 hn
  rw [h] at hv
  cases hv

/-- A setting that is made of the word of a variable if its number is admissible. -/
theorem chosen_bind {α : Type} {P : ℕ → Prop} {value : ℕ → α} {f : UInt64 → Option α}
    (hsome : ∀ v, P v.toNat → f v = some (value v.toNat)) (hnone : ∀ v, ¬ P v.toNat → f v = none) :
    Chosen (fun n => Holds Taken env name n ∧ P n) (fun n => some (value n)) none
      ((accepted (number env name)).bind f) := by
  cases hread : accepted (number env name) with
  | none =>
    refine Or.inr ⟨?_, rfl⟩
    rintro n ⟨hn, -⟩
    exact not_holds_of_none hread n hn
  | some v =>
    rw [Option.bind_some]
    by_cases hP : P v.toNat
    · exact Or.inl ⟨v.toNat, ⟨accepted_number_eq_some.1 hread, hP⟩, hsome v hP⟩
    · refine Or.inr ⟨?_, hnone v hP⟩
      rintro n ⟨hn, hPn⟩
      -- the variable holds one number only, and that is not admissible
      obtain ⟨w, hw, rfl⟩ := holds_iff.1 hn
      obtain rfl : v = w := Option.some.inj (hread.symm.trans hw)
      exact hP hPn

theorem Chosen.getD {α : Type} {admissible : ℕ → Prop} {value : ℕ → α} {o : Option α} (default : α)
    (h : Chosen admissible (fun n => some (value n)) none o) :
    Chosen admissible value default (o.getD default) := by
  obtain ⟨n, hn, rfl⟩ | ⟨hnone, rfl⟩ := h
  · exact Or.inl ⟨n, hn, rfl⟩
  · exact Or.inr ⟨hnone, rfl⟩

/-! ### The settings -/

theorem number_chosen : Chosen (Holds Taken env name) some none
    ((accepted (number env name)).map UInt64.toNat) := by
  cases hread : accepted (number env name) with
  | none => exact Or.inr ⟨not_holds_of_none hread, rfl⟩
  | some v => exact Or.inl ⟨v.toNat, accepted_number_eq_some.1 hread, rfl⟩

/-- A further condition on a number refuses it or leaves what is accepted to that condition. -/
theorem accepted_bind {α : Type} (x : Except Rejection (Option UInt64))
    {f : Option UInt64 → Except Rejection (Option α)} (hf : f none = .ok none) :
    accepted (x >>= f) = (accepted x).bind fun v => accepted (f (some v)) := by
  cases x with
  | error e => rfl
  | ok o =>
    cases o with
    | none => exact congrArg accepted hf
    | some v => rfl

theorem threads_chosen : Chosen (fun n => Holds Taken env threadsVariable n ∧ 1 ≤ n)
    (fun n => some n) none ((accepted (threads env)).map UInt64.toNat) := by
  unfold threads
  rw [accepted_bind _ (by rfl), Option.map_bind]
  apply chosen_bind
  · intro v hv
    dsimp only [Function.comp_apply]
    split
    · rename_i heq
      obtain rfl : v = 0 := Option.some.inj heq
      exact absurd hv (by decide)
    · rfl
  · intro v hv
    obtain rfl : v = 0 := by
      apply UInt64.toNat_inj.1
      change v.toNat = 0
      omega
    rfl

/-- A time is accepted up to a year. -/
theorem span_chosen : Chosen (fun n => Holds Taken env name n ∧ n ≤ 365 * 24 * 60 * 60 * 1000)
    (fun n => some (n : ℤ)) none ((accepted (span env name)).map Int64.toInt) := by
  have hyear : maxSpan.toUInt64.toNat = 365 * 24 * 60 * 60 * 1000 := by decide
  unfold span
  rw [accepted_bind _ (by rfl), Option.map_bind]
  apply chosen_bind
  · intro v hv
    have hle : ¬ v > maxSpan.toUInt64 := by
      rw [gt_iff_lt, UInt64.lt_iff_toNat_lt, hyear]
      omega
    -- a year fits into a signed word by far
    have hint : v.toInt64.toInt = (v.toNat : ℤ) := by
      apply BitVec.toInt_eq_toNat_of_lt
      change 2 * v.toNat < 2 ^ 64
      omega
    dsimp only [Function.comp_apply]
    rw [if_neg hle]
    exact congrArg some hint
  · intro v hv
    have hgt : v > maxSpan.toUInt64 := by
      rw [gt_iff_lt, UInt64.lt_iff_toNat_lt, hyear]
      omega
    dsimp only [Function.comp_apply]
    rw [if_pos hgt]
    rfl

theorem number_congr {other : Environment} (h : env name = other name) :
    number env name = number other name := by
  unfold number
  rw [h]

theorem span_congr {other : Environment} (h : env name = other name) :
    span env name = span other name := by
  unfold span
  rw [number_congr h]

theorem threads_congr {other : Environment} (h : env threadsVariable = other threadsVariable) :
    threads env = threads other := by
  unfold threads
  rw [number_congr h]

/-- Settings look at no variable but their own. -/
theorem setApart (env other : Environment) : SetApart env other where
  ttl h := by simp only [ofEnvironment, span_congr h]
  maxEntries h := by simp only [ofEnvironment, number_congr h]
  threads h := by simp only [ofEnvironment, threads_congr h]
  timeout h := by simp only [ofEnvironment, span_congr h]

/-- The settings follow the numbers that are taken from the texts. -/
theorem follows_taken (env : Environment) : Follows Taken env (ofEnvironment env) where
  ttl := by
    have hfield : (ofEnvironment env).cache.ttl.toInt =
        ((accepted (span env ttlVariable)).map Int64.toInt).getD 500 := by
      simp only [ofEnvironment]
      cases accepted (span env ttlVariable) <;> rfl
    rw [hfield]
    exact span_chosen.getD 500
  maxEntries := number_chosen
  threads := by
    have hfield : (ofEnvironment env).background.threads.toNat =
        ((accepted (threads env)).map UInt64.toNat).getD 2 := by
      simp only [ofEnvironment]
      cases accepted (threads env) <;> rfl
    rw [hfield]
    exact threads_chosen.getD 2
  timeout := span_chosen

theorem Chosen.congr {α : Type} {P Q : ℕ → Prop} {value : ℕ → α} {default setting : α}
    (h : Chosen P value default setting) (hPQ : ∀ n, P n ↔ Q n) : Chosen Q value default setting := by
  obtain rfl : P = Q := funext fun n => propext (hPQ n)
  exact h

/-- Only the numbers the four variables hold matter. -/
theorem Follows.congr {numeral other : Text → ℕ → Prop} {s : Settings} (h : Follows numeral env s)
    (heq : ∀ name ∈ names, ∀ n, Holds numeral env name n ↔ Holds other env name n) :
    Follows other env s where
  ttl := h.ttl.congr fun n => and_congr_left' (heq ttlVariable (by simp [names]) n)
  maxEntries := h.maxEntries.congr (heq maxEntriesVariable (by simp [names]))
  threads := h.threads.congr fun n => and_congr_left' (heq threadsVariable (by simp [names]) n)
  timeout := h.timeout.congr fun n => and_congr_left' (heq timeoutVariable (by simp [names]) n)

/-- **What the environment sets.** Each setting depends on its own variable alone and is exactly the number
read from it, within the limits of that setting, or else the default: an unsigned numeral of a word is
read as its number, and besides that only a numeral with a minus sign behind a blank is read. Where no
variable is spelled like that, the settings are those of the unsigned numerals. -/
theorem ofEnvironment_follows (env : Environment) :
    (∀ other, SetApart env other) ∧ Follows Taken env (ofEnvironment env) ∧
    ((∀ name ∈ names, ∀ n, ¬ Holds CountedDown env name n) →
      Follows Unsigned env (ofEnvironment env)) := by
  refine ⟨setApart env, follows_taken env, ?_⟩
  intro hno
  apply (follows_taken env).congr
  intro name hname n
  constructor
  · rintro ⟨t, henv, hunsigned | hdown⟩
    · exact ⟨t, henv, hunsigned⟩
    · exact absurd ⟨t, henv, hdown⟩ (hno name hname n)
  · rintro ⟨t, henv, hunsigned⟩
    exact ⟨t, henv, Or.inl hunsigned⟩

def oneVariable (name value : Text) : Environment := fun other => if other = name then some value else none

/-- A number of threads with a blank and a plus in front. -/
theorem ofEnvironment_follows_of_plus :
    (∀ name ∈ names, ∀ n, ¬ Holds CountedDown (oneVariable threadsVariable (utf8 " +7")) name n) ∧
    Follows Unsigned (oneVariable threadsVariable (utf8 " +7"))
      (ofEnvironment (oneVariable threadsVariable (utf8 " +7"))) ∧
    (ofEnvironment (oneVariable threadsVariable (utf8 " +7"))).background.threads = 7 := by
  have hspells : Spells (utf8 " +7") false 7 := Text.spells_of_readNumeral (by decide)
  have hno : ∀ name ∈ names, ∀ n,
      ¬ Holds CountedDown (oneVariable threadsVariable (utf8 " +7")) name n := by
    rintro name - n ⟨t, henv, -, m, hm, -⟩
    obtain ⟨-, rfl⟩ : name = threadsVariable ∧ utf8 " +7" = t := by simpa [oneVariable] using henv
    obtain ⟨hminus, -⟩ := hspells.unique hm
    cases hminus
  exact ⟨hno, (ofEnvironment_follows _).2.2 hno, by decide⟩

/-- A bound of `-3` behind a blank is taken, though it is no unsigned numeral. -/
theorem negative_bound_taken : ¬ Follows Unsigned (oneVariable maxEntriesVariable (utf8 " -3"))
    (ofEnvironment (oneVariable maxEntriesVariable (utf8 " -3"))) := by
  intro h
  have hbound : (ofEnvironment (oneVariable maxEntriesVariable (utf8 " -3"))).cache.maxEntries =
      some (0 - 3) := by decide
  have hspells : Spells (utf8 " -3") true 3 := Text.spells_of_readNumeral (by decide)
  obtain ⟨n, ⟨t, henv, hn, -⟩, -⟩ | ⟨-, hnone⟩ := h.maxEntries
  · obtain rfl : utf8 " -3" = t := by simpa [oneVariable] using henv
    obtain ⟨hplain, -⟩ := hspells.unique hn
    cases hplain
  · rw [hbound] at hnone
    cases hnone

end GpuTelemetry.Settings
