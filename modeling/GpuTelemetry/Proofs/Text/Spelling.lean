import GpuTelemetry.Text.Numeral
import GpuTelemetry.Proofs.Text.Line
import Mathlib.Data.List.Induction
import Mathlib.Data.Nat.Digits.Defs
/-!
How a whole number is spelled: blanks, perhaps a sign, and decimal digits, with nothing behind them.
The reader of numerals takes such a spelling from the start of a text, up to the first byte behind it that
is no digit, and finds its number; it uses up a text exactly if the text spells a number. As a word a number
is exact unless it is too large or has a minus sign.
-/

namespace GpuTelemetry.Text

def decimalValue (ds : Text) : ℕ := Nat.ofDigits 10 (ds.reverse.map fun d => d.toNat - 48)

def signs (negative : Bool) : List Text := if negative then [[45]] else [[], [43]]

def Spells (s : Text) (negative : Bool) (n : ℕ) : Prop :=
  ∃ blanks sign digits : Text, s = blanks ++ (sign ++ digits) ∧ (∀ b ∈ blanks, isBlank b = true) ∧
    sign ∈ signs negative ∧ digits ≠ [] ∧ (∀ d ∈ digits, 48 ≤ d ∧ d ≤ 57) ∧ decimalValue digits = n

/-- The text begins with a numeral, whose digits end there. -/
def Begins (s : Text) (negative : Bool) (n : ℕ) : Prop :=
  ∃ numeral rest : Text, s = numeral ++ rest ∧ Spells numeral negative n ∧
    ∀ d ∈ rest.head?, ¬ (48 ≤ d ∧ d ≤ 57)

variable {s t sign digits rest : Text} {negative : Bool} {n : ℕ}

/-! ### Digits, blanks and signs -/

theorem mem_signs : sign ∈ signs negative ↔
    negative = true ∧ sign = [45] ∨ negative = false ∧ (sign = [] ∨ sign = [43]) := by
  cases negative with
  | true => simp [signs]
  | false => simp [signs]

theorem eq_of_mem_sign {b : UInt8} (hsign : sign ∈ signs negative) (hb : b ∈ sign) :
    b = 45 ∨ b = 43 := by
  obtain ⟨-, rfl⟩ | ⟨-, rfl | rfl⟩ := mem_signs.1 hsign
  · exact Or.inl (List.mem_singleton.1 hb)
  · cases hb
  · exact Or.inr (List.mem_singleton.1 hb)

/-- A property of all bytes, checked for one after the other. -/
theorem forall_byte {P : UInt8 → Prop} (h : ∀ n < 256, P (UInt8.ofNat n)) : ∀ b, P b := by
  intro b
  have hb := h b.toNat (UInt8.toNat_lt b)
  rwa [UInt8.ofNat_toNat] at hb

theorem isDigit_iff (b : UInt8) : isDigit 10 b = true ↔ 48 ≤ b ∧ b ≤ 57 := by
  unfold isDigit digitValue
  simp only [decide_eq_true_iff, Bool.and_eq_true, UInt8.le_iff_toNat_le, UInt8.reduceToNat]
  split
  · omega
  · split
    · omega
    · split <;> omega

theorem not_blank_of_digit (b : UInt8) (h : 48 ≤ b ∧ b ≤ 57) : isBlank b = false := by
  have hspace : b ≠ 32 := by
    rintro rfl
    exact absurd h.1 (by decide)
  have hrange : ¬ b ≤ 13 := fun hle => absurd (UInt8.le_trans h.1 hle) (by decide)
  simp [isBlank, hspace, hrange]

theorem not_sign_of_digit (b : UInt8) (h : 48 ≤ b ∧ b ≤ 57) : b ≠ 45 ∧ b ≠ 43 := by
  constructor
  · rintro rfl
    exact absurd h.1 (by decide)
  · rintro rfl
    exact absurd h.1 (by decide)

/-- A letter counts the same as a digit in either case. -/
theorem digitValue_lowerByte (b : UInt8) : digitValue (lowerByte b) = digitValue b := by
  unfold lowerByte
  split
  · rename_i hcapital
    simp only [Bool.and_eq_true, decide_eq_true_eq, UInt8.le_iff_toNat_le, UInt8.reduceToNat] at hcapital
    have hsmall : (b + 32).toNat = b.toNat + 32 := by
      simp only [UInt8.toNat_add, UInt8.reduceToNat]
      omega
    unfold digitValue
    simp only [Bool.and_eq_true, decide_eq_true_eq, UInt8.le_iff_toNat_le, UInt8.reduceToNat, hsmall]
    rw [if_neg (by omega), if_pos (by omega), if_neg (by omega), if_neg (by omega), if_pos (by omega)]
    omega
  · rfl

theorem isDigit_lowerByte (base : ℕ) (b : UInt8) : isDigit base (lowerByte b) = isDigit base b := by
  rw [isDigit, isDigit, digitValue_lowerByte]

/-- A byte that is `c` in lower case is `c` itself or the capital letter. -/
theorem eq_of_lowerByte {b c : UInt8} (h : lowerByte b = c) :
    b = c ∨ (65 ≤ b ∧ b ≤ 90) ∧ b = c - 32 := by
  unfold lowerByte at h
  split at h
  · rename_i hcapital
    refine Or.inr ⟨by simpa using hcapital, ?_⟩
    rw [← h, UInt8.add_sub_cancel]
  · exact Or.inl h

theorem digitsValue_eq_ofDigits {base : ℕ} {value : UInt8 → ℕ} {ds : Text}
    (h : ∀ d ∈ ds, digitValue d = value d) :
    digitsValue base ds = Nat.ofDigits base (ds.reverse.map value) := by
  induction ds using List.reverseRecOn with
  | nil => rfl
  | append_singleton ds d ih =>
    rw [List.forall_mem_append, List.forall_mem_singleton] at h
    obtain ⟨hds, hd⟩ := h
    -- the last digit counts the ones, and those before it as many times more as the base says
    calc digitsValue base (ds ++ [d]) = base * digitsValue base ds + digitValue d := by
          simp [digitsValue, List.foldl_append]
      _ = value d + base * Nat.ofDigits base (ds.reverse.map value) := by
          rw [ih hds, hd, Nat.add_comm]
      _ = Nat.ofDigits base ((ds ++ [d]).reverse.map value) := by simp [Nat.ofDigits_cons]

theorem digitsValue_eq (h : ∀ d ∈ digits, 48 ≤ d ∧ d ≤ 57) :
    digitsValue 10 digits = decimalValue digits := by
  apply digitsValue_eq_ofDigits
  intro d hd
  simp [digitValue, h d hd]

theorem head?_digits (hne : digits ≠ []) (hdigits : ∀ d ∈ digits, 48 ≤ d ∧ d ≤ 57) :
    ∀ d ∈ (digits ++ s).head?, 48 ≤ d ∧ d ≤ 57 := by
  obtain ⟨d, ds, rfl⟩ := List.exists_cons_of_ne_nil hne
  intro c hc
  obtain rfl : d = c := Option.some.inj hc
  exact hdigits d List.mem_cons_self

theorem head_not_blank (hsign : sign ∈ signs negative) (h : ∀ d ∈ s.head?, 48 ≤ d ∧ d ≤ 57) :
    ∀ b ∈ (sign ++ s).head?, isBlank b = false := by
  intro b hb
  obtain ⟨-, rfl⟩ | ⟨-, rfl | rfl⟩ := mem_signs.1 hsign
  · obtain rfl : 45 = b := Option.some.inj hb
    decide
  · exact not_blank_of_digit b (h b hb)
  · obtain rfl : 43 = b := Option.some.inj hb
    decide

theorem takeSign_of_head (h : ∀ b ∈ s.head?, b ≠ 45 ∧ b ≠ 43) : takeSign s = (false, s) := by
  rw [takeSign]
  · rintro r rfl
    exact (h 45 rfl).1 rfl
  · rintro r rfl
    exact (h 43 rfl).2 rfl

theorem takeSign_append (hsign : sign ∈ signs negative) (h : ∀ b ∈ s.head?, b ≠ 45 ∧ b ≠ 43) :
    takeSign (sign ++ s) = (negative, s) := by
  obtain ⟨rfl, rfl⟩ | ⟨rfl, rfl | rfl⟩ := mem_signs.1 hsign
  · rfl
  · exact takeSign_of_head h
  · rfl

/-- What is taken for a sign is one. -/
theorem takeSign_cases (s : Text) :
    ∃ sign ∈ signs (takeSign s).1, s = sign ++ (takeSign s).2 := by
  fun_cases takeSign s with
  | case1 r => exact ⟨[45], by simp [signs], rfl⟩
  | case2 r => exact ⟨[43], by simp [signs], rfl⟩
  | case3 s hminus hplus => exact ⟨[], by simp [signs], rfl⟩

/-! ### The reader -/

/-- A numeral is read from the start of a text, up to where its digits end. -/
theorem readNumeral_iff : readNumeral 10 s = some ⟨negative, n, rest⟩ ↔
    ∃ numeral, s = numeral ++ rest ∧ Spells numeral negative n ∧
      ∀ d ∈ rest.head?, isDigit 10 d = false := by
  constructor
  · intro h
    obtain ⟨sign, hsign, hs⟩ := takeSign_cases (dropBlank s)
    generalize htaken : takeSign (dropBlank s) = taken at hsign hs
    obtain ⟨minus, r⟩ := taken
    simp only [readNumeral, htaken, Nat.reduceEqDiff, if_false] at h
    split at h
    · cases h
    · rename_i hne
      simp only [Option.some.injEq, Numeral.mk.injEq] at h
      obtain ⟨rfl, hvalue, rfl⟩ := h
      have hdigits : ∀ d ∈ r.takeWhile (isDigit 10), 48 ≤ d ∧ d ≤ 57 := by
        intro d hd
        exact (isDigit_iff d).1 (List.mem_takeWhile_imp hd)
      -- the spelling is what the reader has passed over: blanks, a sign, digits
      refine ⟨s.takeWhile isBlank ++ (sign ++ r.takeWhile (isDigit 10)), ?_,
        ⟨_, sign, _, rfl, fun b hb => List.mem_takeWhile_imp hb, hsign, by simpa using hne, hdigits, ?_⟩,
        head?_dropWhile _ r⟩
      · rw [List.append_assoc, List.append_assoc, List.takeWhile_append_dropWhile, ← hs, dropBlank,
          List.takeWhile_append_dropWhile]
      · rw [← digitsValue_eq hdigits, hvalue]
  · rintro ⟨_, rfl, ⟨blanks, sign, digits, rfl, hblanks, hsign, hne, hdigits, rfl⟩, hrest⟩
    have hhead := head?_digits (s := rest) hne hdigits
    -- back: each of the three runs ends where the next one starts
    have hall : ∀ d ∈ digits, isDigit 10 d = true := by
      intro d hd
      exact (isDigit_iff d).2 (hdigits d hd)
    have hdrop : dropBlank (blanks ++ (sign ++ (digits ++ rest))) = sign ++ (digits ++ rest) :=
      dropWhile_append_eq hblanks (head_not_blank hsign hhead)
    have htaken := takeSign_append hsign fun d hd => not_sign_of_digit d (hhead d hd)
    rw [List.append_assoc, List.append_assoc]
    simp [readNumeral, hdrop, htaken, takeWhile_append_eq hall hrest,
      dropWhile_append_eq hall hrest, hne, digitsValue_eq hdigits]

/-- A text begins with a numeral exactly if one is read from it. -/
theorem begins_iff : Begins s negative n ↔ ∃ rest, readNumeral 10 s = some ⟨negative, n, rest⟩ := by
  have hdigit (d : UInt8) : ¬ (48 ≤ d ∧ d ≤ 57) ↔ isDigit 10 d = false := by
    rw [← isDigit_iff, Bool.not_eq_true]
  simp only [Begins, readNumeral_iff, hdigit]
  exact exists_comm

/-- A spelling is read to its end. -/
theorem readNumeral_of_spells (h : Spells s negative n) :
    readNumeral 10 s = some ⟨negative, n, []⟩ :=
  readNumeral_iff.2 ⟨s, (List.append_nil s).symm, h, nofun⟩

/-- What is read to its end is a spelling. -/
theorem spells_of_readNumeral (h : readNumeral 10 s = some ⟨negative, n, []⟩) :
    Spells s negative n := by
  obtain ⟨numeral, hs, hspells, -⟩ := readNumeral_iff.1 h
  rwa [hs, List.append_nil]

theorem not_spells_nil : ¬ Spells [] negative n := by
  rintro ⟨blanks, sign, digits, heq, -, -, hne, -, -⟩
  have hdigits : digits = [] := (List.append_eq_nil_iff.1 (List.append_eq_nil_iff.1 heq.symm).2).2
  exact hne hdigits

/-- A text spells one number at most. -/
theorem Spells.unique {minus : Bool} {m : ℕ} (h : Spells s negative n) (h' : Spells s minus m) :
    minus = negative ∧ m = n := by
  have heq : some (Numeral.mk minus m []) = some ⟨negative, n, []⟩ := by
    rw [← readNumeral_of_spells h, ← readNumeral_of_spells h']
  simpa using heq

/-- Only a number with a minus sign can begin with one. -/
theorem Spells.head_ne (h : Spells s false n) : s.head? ≠ some 45 := by
  intro hhead
  obtain ⟨r, rfl⟩ : ∃ r, s = 45 :: r := by
    cases s with
    | nil => cases hhead
    | cons b r =>
      obtain rfl : b = 45 := Option.some.inj hhead
      exact ⟨r, rfl⟩
  have hread := readNumeral_of_spells h
  have hminus : takeSign (dropBlank (45 :: r)) = (true, r) := rfl
  simp [readNumeral, hminus] at hread

/-! ### Where a numeral begins and ends -/

theorem Spells.getLast?_digit (h : Spells s negative n) : ∀ d ∈ s.getLast?, 48 ≤ d ∧ d ≤ 57 := by
  obtain ⟨blanks, sign, digits, rfl, -, -, hne, hdigits, -⟩ := h
  intro d hd
  rw [← List.append_assoc, List.getLast?_append, List.getLast?_eq_some_getLast hne] at hd
  obtain rfl : digits.getLast hne = d := Option.some.inj hd
  exact hdigits _ (List.getLast_mem hne)

/-- There is no NUL in a spelling. -/
theorem Spells.nul_not_mem (h : Spells s negative n) : 0 ∉ s := by
  obtain ⟨blanks, sign, digits, rfl, hblanks, hsign, -, hdigits, -⟩ := h
  rw [List.mem_append, List.mem_append]
  rintro (hmem | hmem | hmem)
  · exact absurd (hblanks 0 hmem) (by decide)
  · exact absurd (eq_of_mem_sign hsign hmem) (by decide)
  · exact absurd (hdigits 0 hmem) (by decide)

/-- A minus sign stands in a numeral only if it is the numeral's sign. -/
theorem Spells.minus_mem_iff (h : Spells s negative n) : 45 ∈ s ↔ negative = true := by
  obtain ⟨blanks, sign, digits, rfl, hblanks, hsign, -, hdigits, -⟩ := h
  rw [List.mem_append, List.mem_append]
  constructor
  · -- among blanks and digits there is no minus
    rintro (hmem | hmem | hmem)
    · exact absurd (hblanks 45 hmem) (by decide)
    · obtain ⟨hminus, -⟩ | ⟨-, rfl | rfl⟩ := mem_signs.1 hsign
      · exact hminus
      · cases hmem
      · exact absurd hmem (by decide)
    · exact absurd (hdigits 45 hmem) (by decide)
  · rintro rfl
    obtain ⟨-, rfl⟩ | ⟨hplus, -⟩ := mem_signs.1 hsign
    · exact Or.inr (Or.inl List.mem_cons_self)
    · cases hplus

theorem begins_append_left (h : ∀ b ∈ t, isBlank b = true) :
    Begins (t ++ s) negative n ↔ Begins s negative n := by
  have hdrop : dropBlank (t ++ s) = dropBlank s := List.dropWhile_append_of_pos h
  rw [begins_iff, begins_iff, readNumeral, readNumeral, hdrop]

theorem Begins.append (h : Begins s negative n) (ht : ∀ d ∈ t.head?, ¬ (48 ≤ d ∧ d ≤ 57)) :
    Begins (s ++ t) negative n := by
  obtain ⟨numeral, rest, rfl, hspells, hrest⟩ := h
  refine ⟨numeral, rest ++ t, List.append_assoc _ _ _, hspells, ?_⟩
  cases rest with
  | nil => exact ht
  | cons b rest => exact hrest

/-- What follows a numeral can be left out, unless a numeral ends in it. -/
theorem Begins.of_append (h : Begins (s ++ t) negative n)
    (hend : ∀ a b u, t = a ++ b → a ≠ [] → ¬ Spells (u ++ a) negative n) : Begins s negative n := by
  obtain ⟨numeral, rest, heq, hspells, hrest⟩ := h
  obtain ⟨a, rfl, rfl⟩ | ⟨c, rfl, rfl⟩ := List.append_eq_append_iff.1 heq
  · rcases eq_or_ne a [] with rfl | hne
    · rw [List.append_nil] at hspells
      exact ⟨s, [], (List.append_nil s).symm, hspells, nofun⟩
    · exact absurd hspells (hend a rest s rfl hne)
  · refine ⟨numeral, c, rfl, hspells, ?_⟩
    cases c with
    | nil => exact nofun
    | cons b c => exact hrest

/-- Blanks behind a numeral make no difference. -/
theorem begins_append_blanks (h : ∀ b ∈ t, isBlank b = true) :
    Begins (s ++ t) negative n ↔ Begins s negative n := by
  have hnone : ∀ b ∈ t, ¬ (48 ≤ b ∧ b ≤ 57) := by
    intro b hb hdigit
    have hblank := not_blank_of_digit b hdigit
    rw [h b hb] at hblank
    cases hblank
  constructor
  · intro hbegins
    refine hbegins.of_append fun a b u ht hne hspells => ?_
    -- a numeral ends in a digit, and there is none among the blanks
    subst ht
    refine hnone (a.getLast hne) (List.mem_append_left b (List.getLast_mem hne)) ?_
    apply hspells.getLast?_digit
    rw [List.getLast?_append, List.getLast?_eq_some_getLast hne]
    rfl
  · intro hbegins
    exact hbegins.append fun d hd => hnone d (List.mem_of_mem_head? hd)

theorem begins_append_nul : Begins (s ++ 0 :: t) negative n ↔ Begins s negative n := by
  constructor
  · intro hbegins
    refine hbegins.of_append fun a b u ht hne hspells => ?_
    obtain ⟨d, a, rfl⟩ := List.exists_cons_of_ne_nil hne
    obtain rfl : 0 = d := (List.cons.inj ht).1
    exact hspells.nul_not_mem (by simp)
  · intro hbegins
    apply hbegins.append
    rintro d hd hdigit
    obtain rfl : 0 = d := Option.some.inj hd
    exact absurd hdigit (by decide)

/-- To take the blanks away and to stop at a NUL makes no difference to the numeral in front. -/
theorem begins_beforeNul_trim (s : Text) :
    Begins (beforeNul (trim s)) negative n ↔ Begins s negative n := by
  obtain ⟨⟨left, right, hs, hblank⟩, -, -⟩ := stripped_trim s
  rw [List.forall_mem_append] at hblank
  have hcut : Begins (trim s) negative n ↔ Begins (beforeNul (trim s)) negative n := by
    obtain ⟨-, hends | ⟨rest, hends⟩⟩ :=
      before_beforeNul.2 (rfl : beforeNul (trim s) = beforeNul (trim s))
    · rw [← hends]
    · generalize beforeNul (trim s) = shown at hends
      rw [hends]
      exact begins_append_nul
  rw [← hcut]
  generalize trim s = m at hs
  rw [hs, begins_append_left hblank.1, begins_append_blanks hblank.2]

/-! ### Words -/

/-- The word for a number: too large a one gives the largest word, and a minus sign counts down from
`2 ^ 64`. -/
def wordValue (negative : Bool) (n : ℕ) : ℕ :=
  if 2 ^ 64 ≤ n then 2 ^ 64 - 1 else if negative then (2 ^ 64 - n) % 2 ^ 64 else n

theorem toNat_word (negative : Bool) (n : ℕ) (rest : Text) :
    (Numeral.mk negative n rest).word.toNat = wordValue negative n := by
  have hover : (Numeral.mk negative n rest).overflows = decide (2 ^ 64 ≤ n) := rfl
  by_cases hlarge : 2 ^ 64 ≤ n
  · rw [Numeral.word, hover, decide_eq_true hlarge, if_pos rfl, wordValue, if_pos hlarge]
    rfl
  · have hword : n.toUInt64.toNat = n := UInt64.toNat_ofNat_of_lt' (Nat.not_le.1 hlarge)
    rw [Numeral.word, hover, decide_eq_false hlarge, if_neg Bool.false_ne_true, wordValue,
      if_neg hlarge]
    cases negative with
    | true =>
      rw [if_pos rfl, if_pos rfl, UInt64.toNat_sub, hword]
      rfl
    | false => exact hword

theorem wordValue_of_lt (h : n < 2 ^ 64) : wordValue false n = n :=
  if_neg (Nat.not_le.2 h)

/-- Too large a number without a minus sign gives the largest word. -/
theorem wordValue_false (n : ℕ) : wordValue false n = min n (2 ^ 64 - 1) := by
  unfold wordValue
  split
  · omega
  · rw [if_neg Bool.false_ne_true]
    omega

/-- A word is read from a whole text if the text spells a number, and a condition on the number is met. -/
theorem readWord_iff {admissible : Numeral → Bool} {v : UInt64} :
    ((readNumeral 10 s).bind fun m =>
      if m.rest.isEmpty && admissible m then some m.word else none) = some v ↔
    ∃ negative n, Spells s negative n ∧ admissible ⟨negative, n, []⟩ = true ∧
      v.toNat = wordValue negative n := by
  rw [Option.bind_eq_some_iff]
  constructor
  · rintro ⟨⟨negative, n, rest⟩, hread, hword⟩
    obtain ⟨⟨rfl, hadmissible⟩, rfl⟩ : (rest = [] ∧ admissible ⟨negative, n, rest⟩ = true) ∧
        (Numeral.mk negative n rest).word = v := by simpa using hword
    exact ⟨negative, n, spells_of_readNumeral hread, hadmissible, toNat_word negative n []⟩
  · rintro ⟨negative, n, hspells, hadmissible, hv⟩
    refine ⟨⟨negative, n, []⟩, readNumeral_of_spells hspells, ?_⟩
    have hword : (Numeral.mk negative n []).word = v := by
      apply UInt64.toNat_inj.1
      rw [toNat_word, hv]
    simp [hadmissible, hword]

end GpuTelemetry.Text
