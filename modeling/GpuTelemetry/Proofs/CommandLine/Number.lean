import GpuTelemetry.CommandLine.Options
import GpuTelemetry.Proofs.Text.Spelling

namespace GpuTelemetry.CommandLine

open Text (Spells wordValue)

variable {t : Text} {v : UInt64} {n : ℕ}

/-- A value is read if it spells a number and does not begin with a minus sign. -/
theorem number?_eq_some (h : 0 ∉ t) : number? t = some v ↔
    t.head? ≠ some 45 ∧ ∃ negative n, Spells t negative n ∧ v.toNat = wordValue negative n := by
  by_cases hnil : t = []
  · subst hnil
    have hnone : number? [] = none := rfl
    simp [hnone, Text.not_spells_nil]
  by_cases hhead : t.head? = some 45
  · simp [number?, hhead]
  have hread : number? t = (Text.readNumeral 10 t).bind fun m =>
      if m.rest.isEmpty && true then some m.word else none := by
    have hstart : (t.isEmpty || decide (t.head? = some 45)) = false := by simp [hnil, hhead]
    rw [number?, hstart, if_neg Bool.false_ne_true, Text.beforeNul_eq_self h]
    dsimp only
    cases Text.readNumeral 10 t with
    | none => simp [hnil]
    | some m => simp
  rw [hread, Text.readWord_iff]
  simp [hhead]

/-- A value that spells a number has one word. -/
theorem exists_word (negative : Bool) (n : ℕ) : ∃ v : UInt64, v.toNat = wordValue negative n :=
  ⟨_, Text.toNat_word negative n []⟩

/-- What is read as a number: too large a one is the largest word, and one below zero counts down from 2⁶⁴
if a blank hides its sign. -/
theorem number?_eq_some_iff (h : 0 ∉ t) : number? t = some v ↔
    (∃ n, Spells t false n ∧ v.toNat = min n (2 ^ 64 - 1)) ∨
    (t.head? ≠ some 45 ∧
      ∃ n, Spells t true n ∧ v.toNat = if 2 ^ 64 ≤ n then 2 ^ 64 - 1 else (2 ^ 64 - n) % 2 ^ 64) := by
  rw [number?_eq_some h]
  constructor
  · rintro ⟨hhead, negative, n, hspells, hv⟩
    cases negative with
    | true => exact Or.inr ⟨hhead, n, hspells, hv⟩
    | false => exact Or.inl ⟨n, hspells, by rw [hv, Text.wordValue_false]⟩
  · rintro (⟨n, hspells, hv⟩ | ⟨hhead, n, hspells, hv⟩)
    · exact ⟨hspells.head_ne, false, n, hspells, by rw [hv, Text.wordValue_false]⟩
    · exact ⟨hhead, true, n, hspells, hv⟩

/-- Where the number read is always the one that is spelled. -/
theorem number?_exact_iff (h : 0 ∉ t) : (∀ v, number? t = some v ↔ Spells t false v.toNat) ↔
    (∀ n, Spells t false n → n < 2 ^ 64) ∧ ((∃ n, Spells t true n) → t.head? = some 45) := by
  constructor
  · intro hexact
    refine ⟨?_, ?_⟩
    · intro n hspells
      obtain ⟨v, hv⟩ := exists_word false n
      have hread : number? t = some v := (number?_eq_some h).2 ⟨hspells.head_ne, false, n, hspells, hv⟩
      -- the word read is the number itself, so the number fits into a word
      obtain ⟨-, rfl⟩ := hspells.unique ((hexact v).1 hread)
      exact v.toNat_lt
    · rintro ⟨n, hspells⟩
      by_contra hhead
      obtain ⟨v, hv⟩ := exists_word true n
      have hread : number? t = some v := (number?_eq_some h).2 ⟨hhead, true, n, hspells, hv⟩
      -- a text with a minus sign spells no number without one
      obtain ⟨hminus, -⟩ := hspells.unique ((hexact v).1 hread)
      cases hminus
  · rintro ⟨hfits, hminus⟩ v
    rw [number?_eq_some h]
    constructor
    · rintro ⟨hhead, negative, n, hspells, hv⟩
      cases negative with
      | true => exact absurd (hminus ⟨n, hspells⟩) hhead
      | false =>
        rw [Text.wordValue_of_lt (hfits n hspells)] at hv
        rwa [hv]
    · intro hspells
      exact ⟨hspells.head_ne, false, v.toNat, hspells, (Text.wordValue_of_lt v.toNat_lt).symm⟩

variable {κ : Type} [DecidableEq κ]

/-- **What the number of a flag is.** A flag without values has none. Otherwise its first value decides: a
numeral without a minus sign gives its number, or the largest word if that is smaller; a numeral whose
minus sign stands behind blanks is counted down from `2 ^ 64`; and all other texts give no number. So a
number is read exactly where the text is an unsigned numeral of it if, and only if, the text is no
numeral of a number too large for a word and has no minus sign behind blanks. -/
theorem number_of_flag (g : Given κ) (k : κ) :
    ((∀ t ts, g.values? k ≠ some (t :: ts)) → g.number? k = none) ∧
    ∀ t ts, g.values? k = some (t :: ts) → 0 ∉ t →
      (∀ v, g.number? k = some v ↔
        (∃ n, Spells t false n ∧ v.toNat = min n (2 ^ 64 - 1)) ∨
        (t.head? ≠ some 45 ∧
          ∃ n, Spells t true n ∧ v.toNat = if 2 ^ 64 ≤ n then 2 ^ 64 - 1 else (2 ^ 64 - n) % 2 ^ 64)) ∧
      ((∀ v, g.number? k = some v ↔ Spells t false v.toNat) ↔
        (∀ n, Spells t false n → n < 2 ^ 64) ∧ ((∃ n, Spells t true n) → t.head? = some 45)) := by
  constructor
  · intro hnone
    unfold Given.number?
    split
    · rename_i t ts hvalues
      exact absurd hvalues (hnone t ts)
    · rfl
  · intro t ts hvalues h
    have hflag : g.number? k = number? t := by rw [Given.number?, hvalues]
    rw [hflag]
    exact ⟨fun v => number?_eq_some_iff h, number?_exact_iff h⟩

def oneValue (value : Text) : Given UInt8 := { values := [(1, [value])] }

/-- A blank and a plus do not keep a number from being read. -/
theorem number_of_flag_of_plus :
    (oneValue (utf8 " +5")).values? 1 = some [utf8 " +5"] ∧ 0 ∉ utf8 " +5" ∧
    (oneValue (utf8 " +5")).number? 1 = some 5 ∧
    ∀ v, (oneValue (utf8 " +5")).number? 1 = some v ↔ Spells (utf8 " +5") false v.toNat := by
  have hvalues : (oneValue (utf8 " +5")).values? 1 = some [utf8 " +5"] := by decide
  have hnul : 0 ∉ utf8 " +5" := by decide
  have hspells : Spells (utf8 " +5") false 5 := Text.spells_of_readNumeral (by decide)
  obtain ⟨hread, hexact⟩ := (number_of_flag (oneValue (utf8 " +5")) 1).2 _ _ hvalues hnul
  refine ⟨hvalues, hnul, (hread 5).2 (Or.inl ⟨5, hspells, rfl⟩), hexact.2 ⟨?_, ?_⟩⟩
  · intro n hn
    obtain ⟨-, rfl⟩ := hspells.unique hn
    decide
  · rintro ⟨n, hn⟩
    obtain ⟨hminus, -⟩ := hspells.unique hn
    cases hminus

/-- Numbers that are too large and numbers with a minus sign behind a blank are read as others. -/
theorem other_number_read :
    (¬ ∀ v, (oneValue (utf8 "18446744073709551616")).number? 1 = some v ↔
      Spells (utf8 "18446744073709551616") false v.toNat) ∧
    ¬ ∀ v, (oneValue (utf8 " -1")).number? 1 = some v ↔ Spells (utf8 " -1") false v.toNat := by
  have hlarge : (oneValue (utf8 "18446744073709551616")).number? 1 = some (0 - 1) := by decide
  have hminus : (oneValue (utf8 " -1")).number? 1 = some (0 - 1) := by decide
  refine ⟨?_, ?_⟩
  · intro hexact
    have hspells := Text.readNumeral_of_spells ((hexact (0 - 1)).1 hlarge)
    exact absurd hspells (by decide)
  · intro hexact
    have hspells := Text.readNumeral_of_spells ((hexact (0 - 1)).1 hminus)
    exact absurd hspells (by decide)

end GpuTelemetry.CommandLine
