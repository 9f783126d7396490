import GpuTelemetry.Decimal.Reader
import GpuTelemetry.Proofs.Text.Spelling
/-!
The numerals of floating-point numbers: decimal and hexadecimal ones and the words for infinity and for what
is not a number. A field is read exactly if what it shows, without the blanks at its ends and up to a NUL, is
one such numeral from the first byte to the last, perhaps with a sign.
-/

namespace GpuTelemetry.Decimal

open Text (isDigit digitsValue lowerByte lower signs Before Stripped)

/-! ### The grammar -/

def AllDigits (base : ℕ) (s : Text) : Prop := ∀ d ∈ s, isDigit base d = true

/-- Digits with at most one point among them, these digits, and how many of them stand behind the point. -/
inductive Mantissa (base : ℕ) : Text → Text → ℕ → Prop where
  | whole {ds : Text} : AllDigits base ds → ds ≠ [] → Mantissa base ds ds 0
  | point {ds part : Text} : AllDigits base ds → AllDigits base part → ds ++ part ≠ [] →
      Mantissa base (ds ++ 46 :: part) (ds ++ part) part.length

/-- An exponent behind its mark; it is zero where there is none. -/
inductive Power (mark : UInt8) : Text → ℤ → Prop where
  | absent : Power mark [] 0
  | present {letter : UInt8} {negative : Bool} {sign ds : Text} : lowerByte letter = mark →
      sign ∈ signs negative → AllDigits 10 ds → ds ≠ [] →
      Power mark (letter :: (sign ++ ds))
        (if negative then -(digitsValue 10 ds : ℤ) else digitsValue 10 ds)

def isWordByte (b : UInt8) : Bool := isDigit 36 b || b == 95

/-- What may follow the word for what is not a number: letters, digits and underscores in parentheses. -/
inductive Payload : Text → Prop where
  | absent : Payload []
  | present {s : Text} : (∀ b ∈ s, isWordByte b = true) → Payload (40 :: (s ++ [41]))

/-- What a numeral without a sign says: a whole number and a power of ten or of two to multiply it with,
infinity, or that it is not a number. -/
inductive Figure where
  | decimal (m : ℕ) (e : ℤ)
  | binary (m : ℕ) (e : ℤ)
  | infinity
  | nan

inductive Spelled : Text → Figure → Prop where
  | decimal {s t ds : Text} {places : ℕ} {e : ℤ} : Mantissa 10 s ds places → Power 101 t e →
      Spelled (s ++ t) (.decimal (digitsValue 10 ds) (e - places))
  | hexadecimal {mark s t ds : Text} {places : ℕ} {e : ℤ} : lower mark = utf8 "0x" →
      Mantissa 16 s ds places → Power 112 t e →
      Spelled (mark ++ (s ++ t)) (.binary (digitsValue 16 ds) (e - 4 * places))
  | infinity {s : Text} : lower s = utf8 "infinity" ∨ lower s = utf8 "inf" → Spelled s .infinity
  | nan {s t : Text} : lower s = utf8 "nan" → Payload t → Spelled (s ++ t) .nan

def Holds (field : Text) (negative : Bool) (n : Figure) : Prop :=
  ∃ stripped shown sign magnitude, Stripped field stripped ∧ Before 0 stripped shown ∧
    shown = sign ++ magnitude ∧ sign ∈ signs negative ∧ Spelled magnitude n

def Figure.double : Figure → Double
  | .decimal m e => .ofFloat (ofDecimal m e)
  | .binary m e => .ofFloat (ofBinary m e)
  | .infinity => .ofFloat (1 / 0)
  | .nan => .ofFloat (0 / 0)

def Figure.signed (n : Figure) (negative : Bool) : Double := if negative then n.double.neg else n.double

variable {base places : ℕ} {mark letter : UInt8} {s t ds r word : Text} {e : ℤ} {n : Figure} {x : Double}
  {negative : Bool} {field : Text}

/-! ### Mantissa and exponent -/

/-- A mantissa is read to its end if neither a digit nor a point follows. -/
theorem readMantissa_append (hpoint : isDigit base 46 = false) (h : Mantissa base s ds places)
    (ht : ∀ b ∈ t.head?, isDigit base b = false ∧ b ≠ 46) :
    readMantissa base (s ++ t) = some (ds, places, t) := by
  have hstop : ∀ b ∈ t.head?, isDigit base b = false := fun b hb => (ht b hb).1
  unfold readMantissa
  cases h with
  | whole hds hne =>
    rw [Text.takeWhile_append_eq hds hstop, Text.dropWhile_append_eq hds hstop]
    split
    · exact absurd rfl (ht 46 rfl).2
    · simp [hne]
  | @point ds part hds hpart hne =>
    -- the digits in front end at the point, which is no digit
    have hdot : ∀ b ∈ (46 :: (part ++ t)).head?, isDigit base b = false := by
      rintro b hb
      obtain rfl : 46 = b := Option.some.inj hb
      exact hpoint
    rw [List.append_assoc, List.cons_append, Text.takeWhile_append_eq hds hdot,
      Text.dropWhile_append_eq hds hdot]
    split
    case h_1 r hr =>
      obtain rfl : part ++ t = r := (List.cons.inj hr).2
      rw [Text.takeWhile_append_eq hpart hstop, Text.dropWhile_append_eq hpart hstop, if_neg]
      simpa using hne
    case h_2 hno => exact absurd rfl (hno (part ++ t))

/-- What is read as a mantissa is one. -/
theorem mantissa_of_readMantissa (h : readMantissa base s = some (ds, places, t)) :
    ∃ m, s = m ++ t ∧ Mantissa base m ds places := by
  have hsplit := List.takeWhile_append_dropWhile (p := isDigit base) (l := s)
  have hwhole : AllDigits base (s.takeWhile (isDigit base)) := fun d hd => List.mem_takeWhile_imp hd
  unfold readMantissa at h
  dsimp only at h
  -- with a point behind the first digits, or without
  split at h
  · rename_i r hr
    have hrest := List.takeWhile_append_dropWhile (p := isDigit base) (l := r)
    have hpart : AllDigits base (r.takeWhile (isDigit base)) := fun d hd => List.mem_takeWhile_imp hd
    obtain ⟨hne, hfound⟩ := Option.ite_none_left_eq_some.1 h
    cases hfound
    refine ⟨_, ?_, .point hwhole hpart (by simpa using hne)⟩
    rw [List.append_assoc, List.cons_append, hrest, ← hr, hsplit]
  · obtain ⟨hne, hfound⟩ := Option.ite_none_left_eq_some.1 h
    cases hfound
    exact ⟨_, hsplit.symm, .whole hwhole (by simpa using hne)⟩

theorem no_sign_of_digits (h : AllDigits 10 s) : ∀ b ∈ s.head?, b ≠ 45 ∧ b ≠ 43 := by
  intro b hb
  have hdigit := h b (List.mem_of_mem_head? hb)
  exact Text.not_sign_of_digit b ((Text.isDigit_iff b).1 hdigit)

theorem readExponent_eq_nil : readExponent mark t = (e, []) ↔ Power mark t e := by
  constructor
  · intro h
    cases t with
    | nil =>
      obtain rfl : 0 = e := congrArg Prod.fst h
      exact .absent
    | cons letter s =>
      obtain ⟨sign, hsign, hs⟩ := Text.takeSign_cases s
      generalize htaken : Text.takeSign s = taken at hsign hs
      obtain ⟨negative, r⟩ := taken
      simp only [readExponent, htaken] at h
      split at h
      · rename_i hletter
        split at h
        · cases h
        · rename_i hne
          -- nothing is left, so all that follows the sign are digits
          have hrest : r.dropWhile (isDigit 10) = [] := congrArg Prod.snd h
          have hall : AllDigits 10 r := List.dropWhile_eq_nil_iff.1 hrest
          rw [List.takeWhile_eq_self_iff.2 hall] at h hne
          obtain rfl := congrArg Prod.fst h
          rw [hs]
          exact .present hletter hsign hall (by simpa using hne)
      · cases h
  · intro h
    cases h with
    | absent => rfl
    | @present letter negative sign ds hletter hsign hall hne =>
      have htaken := Text.takeSign_append hsign (no_sign_of_digits hall)
      simp [readExponent, hletter, htaken, List.takeWhile_eq_self_iff.2 hall,
        List.dropWhile_eq_nil_iff.2 hall, hne]

theorem Power.head (h : Power mark t e) : ∀ b ∈ t.head?, lowerByte b = mark := by
  cases h with
  | absent => exact nofun
  | present hletter _ _ _ =>
    intro b hb
    obtain rfl := Option.some.inj hb
    exact hletter

/-- A letter that is no digit is not part of a mantissa. -/
theorem apart_of_lowerByte {b : UInt8} (h : lowerByte b = letter) (hdigit : isDigit base letter = false)
    (hletter : letter ≠ 46) : isDigit base b = false ∧ b ≠ 46 := by
  constructor
  · rw [← Text.isDigit_lowerByte, h, hdigit]
  · rintro rfl
    exact hletter h.symm

/-- A mantissa and an exponent are read as far as they go. -/
theorem read_parts_iff {α : Type} {f : Text → ℕ → ℤ → α} {a : α} (hpoint : isDigit base 46 = false)
    (hmark : ∀ b, lowerByte b = mark → isDigit base b = false ∧ b ≠ 46) :
    ((readMantissa base s).bind fun p =>
      some (f p.1 p.2.1 (readExponent mark p.2.2).1, (readExponent mark p.2.2).2)) = some (a, []) ↔
    ∃ m t ds places e, s = m ++ t ∧ Mantissa base m ds places ∧ Power mark t e ∧ f ds places e = a := by
  rw [Option.bind_eq_some_iff]
  constructor
  · rintro ⟨⟨ds, places, t⟩, hread, hfound⟩
    obtain ⟨m, rfl, hmantissa⟩ := mantissa_of_readMantissa hread
    obtain ⟨ha, hrest⟩ : f ds places (readExponent mark t).1 = a ∧ (readExponent mark t).2 = [] := by
      simpa using hfound
    have hpower : readExponent mark t = ((readExponent mark t).1, []) := by rw [← hrest]
    exact ⟨m, t, ds, places, _, rfl, hmantissa, readExponent_eq_nil.1 hpower, ha⟩
  · rintro ⟨m, t, ds, places, e, rfl, hmantissa, hpower, rfl⟩
    have hread := readMantissa_append hpoint hmantissa fun b hb => hmark b (hpower.head b hb)
    refine ⟨_, hread, ?_⟩
    dsimp only
    rw [readExponent_eq_nil.2 hpower]

/-- A decimal numeral is a mantissa with an exponent, and each place behind the point counts for one power
of ten. -/
theorem readDecimal_iff : readDecimal s = some (x, []) ↔
    ∃ m t ds places e, s = m ++ t ∧ Mantissa 10 m ds places ∧ Power 101 t e ∧
      .ofFloat (ofDecimal (digitsValue 10 ds) (e - (places : ℕ))) = x := by
  have hmark (b : UInt8) (hb : lowerByte b = 101) : isDigit 10 b = false ∧ b ≠ 46 :=
    apart_of_lowerByte hb (by decide) (by decide)
  exact read_parts_iff (f := fun ds places e =>
    Double.ofFloat (ofDecimal (digitsValue 10 ds) (e - (places : ℕ)))) (by decide) hmark

/-- A hexadecimal numeral has powers of two, and each place behind the point counts for four. -/
theorem readHexadecimal_iff : readHexadecimal s = some (x, []) ↔
    ∃ m t ds places e, s = m ++ t ∧ Mantissa 16 m ds places ∧ Power 112 t e ∧
      .ofFloat (ofBinary (digitsValue 16 ds) (e - 4 * (places : ℕ))) = x := by
  have hmark (b : UInt8) (hb : lowerByte b = 112) : isDigit 16 b = false ∧ b ≠ 46 :=
    apart_of_lowerByte hb (by decide) (by decide)
  exact read_parts_iff (f := fun ds places e =>
    Double.ofFloat (ofBinary (digitsValue 16 ds) (e - 4 * (places : ℕ)))) (by decide) hmark

/-! ### Words -/

theorem dropWord_eq_some : dropWord word s = some r ↔ ∃ w, s = w ++ r ∧ lower w = word := by
  unfold dropWord
  rw [Option.ite_none_right_eq_some, Option.some.injEq]
  constructor
  · rintro ⟨hword, rfl⟩
    exact ⟨s.take word.length, (List.take_append_drop _ _).symm, hword⟩
  · rintro ⟨w, rfl, rfl⟩
    have hlength : (lower w).length = w.length := List.length_map _
    rw [hlength, List.take_left, List.drop_left]
    exact ⟨rfl, rfl⟩

/-- A word is not found where the text begins with another letter. -/
theorem dropWord_eq_none_of_head (hword : word.head? = some letter)
    (h : ∀ b ∈ s.head?, lowerByte b ≠ letter) : dropWord word s = none := by
  rw [Option.eq_none_iff_forall_ne_some]
  intro r hr
  obtain ⟨w, rfl, rfl⟩ := dropWord_eq_some.1 hr
  cases w with
  | nil => cases hword
  | cons b w => exact h b rfl (Option.some.inj hword)

theorem dropPayload_eq_nil : dropPayload t = [] ↔ Payload t := by
  constructor
  · intro h
    unfold dropPayload at h
    split at h
    · rename_i r
      split at h
      · rename_i u hu
        subst h
        have hsplit := List.takeWhile_append_dropWhile (p := isWordByte) (l := r)
        -- what is dropped ends with the closing bracket, and nothing stands behind it
        have hclose : r.dropWhile isWordByte = [41] := hu
        rw [hclose] at hsplit
        rw [← hsplit]
        exact .present fun b hb => List.mem_takeWhile_imp hb
      · cases h
    · rw [h]
      exact .absent
  · intro h
    cases h with
    | absent => rfl
    | @present s hs =>
      have hstop : ∀ b ∈ ([41] : Text).head?, isWordByte b = false := by
        rintro b ⟨⟩
        decide
      have hclose : (s ++ [41]).dropWhile (fun b => isDigit 36 b || b == 95) = [41] :=
        Text.dropWhile_append_eq hs hstop
      simp only [dropPayload, hclose]

theorem readInfinity_iff : readInfinity s = some (x, []) ↔
    (lower s = utf8 "infinity" ∨ lower s = utf8 "inf") ∧ .ofFloat (1 / 0) = x := by
  have hwhole (word : Text) : dropWord word s = some [] ↔ lower s = word := by
    simp [dropWord_eq_some]
  unfold readInfinity
  simp only [Option.map_eq_some_iff, Option.or_eq_some_iff, Prod.mk.injEq]
  constructor
  · rintro ⟨r, hfound | ⟨-, hfound⟩, hx, rfl⟩
    · exact ⟨Or.inl ((hwhole _).1 hfound), hx⟩
    · exact ⟨Or.inr ((hwhole _).1 hfound), hx⟩
  · rintro ⟨hlong | hshort, hx⟩
    · exact ⟨[], Or.inl ((hwhole _).2 hlong), hx, rfl⟩
    · refine ⟨[], Or.inr ⟨?_, (hwhole _).2 hshort⟩, hx, rfl⟩
      -- the short word is not long enough for the long one
      rw [Option.eq_none_iff_forall_ne_some]
      intro r hr
      obtain ⟨w, rfl, hw⟩ := dropWord_eq_some.1 hr
      have hlength := congrArg List.length hshort
      have hlength' := congrArg List.length hw
      rw [lower, List.length_map, List.length_append] at hlength
      rw [lower, List.length_map] at hlength'
      have hshorter : (utf8 "inf").length < (utf8 "infinity").length := by decide
      omega

/-- The word for what is not a number may come with a payload, which counts for nothing. -/
theorem readNan_iff : readNan s = some (x, []) ↔
    ∃ w t, s = w ++ t ∧ lower w = utf8 "nan" ∧ Payload t ∧ .ofFloat (0 / 0) = x := by
  unfold readNan
  simp only [Option.map_eq_some_iff, dropWord_eq_some, Prod.mk.injEq, dropPayload_eq_nil]
  constructor
  · rintro ⟨t, ⟨w, rfl, hw⟩, hx, ht⟩
    exact ⟨w, t, rfl, hw, ht, hx⟩
  · rintro ⟨w, t, rfl, hw, ht, hx⟩
    exact ⟨t, ⟨w, rfl, hw⟩, hx, ht⟩

/-! ### Magnitudes -/

/-- The bytes of a mantissa. -/
theorem Mantissa.forall_mem (h : Mantissa base s ds places) :
    ∀ b ∈ s, isDigit base b = true ∨ b = 46 := by
  intro b hb
  cases h with
  | whole hds _ => exact Or.inl (hds b hb)
  | point hds hpart _ =>
    rw [List.mem_append, List.mem_cons] at hb
    rcases hb with hb | hb | hb
    · exact Or.inl (hds b hb)
    · exact Or.inr hb
    · exact Or.inl (hpart b hb)

theorem Mantissa.ne_nil (h : Mantissa base s ds places) : s ≠ [] := by
  cases h with
  | whole _ hne => exact hne
  | point _ _ _ => simp

theorem readDecimal_eq_none (h : ∀ b ∈ s.head?, isDigit 10 b = false ∧ b ≠ 46) :
    readDecimal s = none := by
  have hmantissa : readMantissa 10 s = none := by
    rw [Option.eq_none_iff_forall_ne_some]
    rintro ⟨ds, places, t⟩ hread
    obtain ⟨m, rfl, hm⟩ := mantissa_of_readMantissa hread
    obtain ⟨b, m', rfl⟩ := List.exists_cons_of_ne_nil hm.ne_nil
    obtain ⟨hdigit, hpoint⟩ := h b rfl
    rcases hm.forall_mem b List.mem_cons_self with hb | hb
    · rw [hdigit] at hb
      cases hb
    · exact hpoint hb
  rw [readDecimal, hmantissa]
  rfl

theorem Power.forall_mem (h : Power mark t e) :
    ∀ b ∈ t, lowerByte b = mark ∨ b = 45 ∨ b = 43 ∨ isDigit 10 b = true := by
  intro b hb
  cases h with
  | absent => cases hb
  | @present letter negative sign ds hletter hsign hds _ =>
    rw [List.mem_cons, List.mem_append] at hb
    rcases hb with rfl | hb | hb
    · exact Or.inl hletter
    · rcases Text.eq_of_mem_sign hsign hb with h | h
      · exact Or.inr (Or.inl h)
      · exact Or.inr (Or.inr (Or.inl h))
    · exact Or.inr (Or.inr (Or.inr (hds b hb)))

/-- A decimal numeral does not begin with the mark of hexadecimal ones, since there is no `x` in it. -/
theorem dropMark_eq_none (hs : Mantissa 10 s ds places) (ht : Power 101 t e) :
    dropWord (utf8 "0x") (s ++ t) = none := by
  have hnone : ∀ b ∈ s ++ t, lowerByte b ≠ 120 := by
    intro b hb hletter
    obtain ⟨hdigit, hpoint⟩ : isDigit 10 b = false ∧ b ≠ 46 :=
      apart_of_lowerByte hletter (by decide) (by decide)
    have hno : ¬ isDigit 10 b = true := by simp [hdigit]
    -- each byte is a digit, a point, a sign or the letter of the exponent
    rcases List.mem_append.1 hb with hb | hb
    · exact (hs.forall_mem b hb).elim hno hpoint
    · rcases ht.forall_mem b hb with h | rfl | rfl | h
      · rw [hletter] at h
        exact absurd h (by decide)
      · exact absurd hletter (by decide)
      · exact absurd hletter (by decide)
      · exact hno h
  rw [Option.eq_none_iff_forall_ne_some]
  intro r hr
  obtain ⟨w, hw, hmark⟩ := dropWord_eq_some.1 hr
  have hmem : 120 ∈ lower w := by
    rw [hmark]
    decide
  obtain ⟨b, hb, hletter⟩ := List.mem_map.1 hmem
  refine hnone b ?_ hletter
  rw [hw]
  exact List.mem_append_left r hb

theorem head_lower (hword : word.head? = some letter) (h : lower s = word) :
    ∀ b ∈ (s ++ t).head?, lowerByte b = letter := by
  subst h
  cases s with
  | nil => cases hword
  | cons c s =>
    intro b hb
    obtain rfl : c = b := Option.some.inj hb
    exact Option.some.inj hword

/-- No numeral begins with one of these letters. -/
theorem not_numeral_of_head (hletter : letter = 105 ∨ letter = 110)
    (h : ∀ b ∈ s.head?, lowerByte b = letter) :
    dropWord (utf8 "0x") s = none ∧ readDecimal s = none := by
  constructor
  · apply dropWord_eq_none_of_head rfl
    intro b hb
    rw [h b hb]
    rcases hletter with rfl | rfl
    · decide
    · decide
  · apply readDecimal_eq_none
    intro b hb
    rcases hletter with rfl | rfl
    · exact apart_of_lowerByte (h b hb) (by decide) (by decide)
    · exact apart_of_lowerByte (h b hb) (by decide) (by decide)

theorem readInfinity_eq_none (h : ∀ b ∈ s.head?, lowerByte b = 110) : readInfinity s = none := by
  have hother : ∀ b ∈ s.head?, lowerByte b ≠ 105 := by
    intro b hb
    rw [h b hb]
    decide
  rw [readInfinity, dropWord_eq_none_of_head rfl hother, dropWord_eq_none_of_head rfl hother]
  rfl

theorem readMarked_iff : (dropWord (utf8 "0x") s >>= readHexadecimal) = some (x, []) ↔
    ∃ mark t, s = mark ++ t ∧ lower mark = utf8 "0x" ∧ readHexadecimal t = some (x, []) := by
  simp only [bind, Option.bind_eq_some_iff, dropWord_eq_some]
  constructor
  · rintro ⟨t, ⟨mark, rfl, hmark⟩, hread⟩
    exact ⟨mark, t, rfl, hmark, hread⟩
  · rintro ⟨mark, t, rfl, hmark, hread⟩
    exact ⟨t, ⟨mark, rfl, hmark⟩, hread⟩

/-- Without its sign a numeral is read exactly if it spells a figure. -/
theorem readMagnitude_iff : readMagnitude s = some (x, []) ↔ ∃ n, Spelled s n ∧ n.double = x := by
  unfold readMagnitude
  simp only [Option.or_eq_some_iff, readMarked_iff]
  -- the readers are tried in turn, so each form has to be refused by those before its own
  constructor
  · rintro (⟨mark, r, rfl, hmark, hread⟩ | ⟨-, hread | ⟨-, hread | ⟨-, hread⟩⟩⟩)
    · obtain ⟨m, t, ds, places, e, rfl, hm, ht, hx⟩ := readHexadecimal_iff.1 hread
      exact ⟨_, .hexadecimal hmark hm ht, hx⟩
    · obtain ⟨m, t, ds, places, e, rfl, hm, ht, hx⟩ := readDecimal_iff.1 hread
      exact ⟨_, .decimal hm ht, hx⟩
    · obtain ⟨hword, hx⟩ := readInfinity_iff.1 hread
      exact ⟨_, .infinity hword, hx⟩
    · obtain ⟨w, t, rfl, hw, ht, hx⟩ := readNan_iff.1 hread
      exact ⟨_, .nan hw ht, hx⟩
  · rintro ⟨n, hspelled, hx⟩
    cases hspelled with
    | hexadecimal hmark hm ht =>
      exact Or.inl ⟨_, _, rfl, hmark, readHexadecimal_iff.2 ⟨_, _, _, _, _, rfl, hm, ht, hx⟩⟩
    | decimal hm ht =>
      rw [dropMark_eq_none hm ht]
      exact Or.inr ⟨rfl, Or.inl (readDecimal_iff.2 ⟨_, _, _, _, _, rfl, hm, ht, hx⟩)⟩
    | infinity hword =>
      have hhead : ∀ b ∈ s.head?, lowerByte b = 105 := by
        rw [← List.append_nil s]
        rcases hword with hword | hword
        · exact head_lower rfl hword
        · exact head_lower rfl hword
      obtain ⟨hmark, hdecimal⟩ := not_numeral_of_head (Or.inl rfl) hhead
      rw [hmark, hdecimal]
      exact Or.inr ⟨rfl, Or.inr ⟨rfl, Or.inl (readInfinity_iff.2 ⟨hword, hx⟩)⟩⟩
    | @nan w t hw ht =>
      have hhead : ∀ b ∈ (w ++ t).head?, lowerByte b = 110 := head_lower rfl hw
      obtain ⟨hmark, hdecimal⟩ := not_numeral_of_head (Or.inr rfl) hhead
      rw [hmark, hdecimal, readInfinity_eq_none hhead]
      exact Or.inr ⟨rfl, Or.inr ⟨rfl, Or.inr ⟨rfl, readNan_iff.2 ⟨_, _, rfl, hw, ht, hx⟩⟩⟩⟩

/-! ### Fields -/

/-- A numeral begins with a digit, a letter or a point. -/
theorem Spelled.head (h : Spelled s n) : ∀ b ∈ s.head?, isDigit 36 b = true ∨ b = 46 := by
  -- the words and the mark begin with a letter, which is a digit in base 36
  have hword {c b : UInt8} (hb : lowerByte b = c) (hc : isDigit 36 c = true) :
      isDigit 36 b = true ∨ b = 46 := by
    rw [← Text.isDigit_lowerByte, hb]
    exact Or.inl hc
  intro b hb
  cases h with
  | @decimal m t ds places e hm ht =>
    obtain ⟨c, m', rfl⟩ := List.exists_cons_of_ne_nil hm.ne_nil
    obtain rfl : c = b := Option.some.inj hb
    rcases hm.forall_mem c List.mem_cons_self with hdigit | hpoint
    · have hlt : Text.digitValue c < 10 := of_decide_eq_true hdigit
      exact Or.inl (decide_eq_true (by omega))
    · exact Or.inr hpoint
  | hexadecimal hmark hm ht => exact hword (head_lower rfl hmark b hb) (by decide)
  | infinity hspelled =>
    rw [← List.append_nil s] at hb
    rcases hspelled with hspelled | hspelled
    · exact hword (head_lower rfl hspelled b hb) (by decide)
    · exact hword (head_lower rfl hspelled b hb) (by decide)
  | nan hw ht => exact hword (head_lower rfl hw b hb) (by decide)

theorem Spelled.head_ne_sign (h : Spelled s n) : ∀ b ∈ s.head?, b ≠ 45 ∧ b ≠ 43 := by
  intro b hb
  have hhead := h.head b hb
  constructor
  · rintro rfl
    exact absurd hhead (by decide)
  · rintro rfl
    exact absurd hhead (by decide)

/-- A text without blanks in front is read whole if it is a sign, or none, before a figure. -/
theorem readDouble_iff (h : ∀ b ∈ s.head?, Text.isBlank b = false) :
    readDouble s = some (x, []) ↔ ∃ negative n sign magnitude, s = sign ++ magnitude ∧
      sign ∈ signs negative ∧ Spelled magnitude n ∧ n.signed negative = x := by
  unfold readDouble
  rw [Text.dropBlank_of_head h]
  constructor
  · intro hread
    obtain ⟨sign, hsign, hs⟩ := Text.takeSign_cases s
    generalize Text.takeSign s = taken at hsign hs hread
    obtain ⟨negative, r⟩ := taken
    obtain ⟨⟨y, rest⟩, hmagnitude, hx⟩ := Option.map_eq_some_iff.1 hread
    obtain ⟨rfl, rfl⟩ := Prod.mk.inj hx
    obtain ⟨n, hspelled, rfl⟩ := readMagnitude_iff.1 hmagnitude
    exact ⟨negative, n, sign, r, hs, hsign, hspelled, rfl⟩
  · rintro ⟨negative, n, sign, magnitude, rfl, hsign, hspelled, rfl⟩
    rw [Text.takeSign_append hsign hspelled.head_ne_sign]
    dsimp only
    rw [readMagnitude_iff.2 ⟨n, hspelled, rfl⟩]
    rfl

/-- A field is read exactly if it holds a figure, as the double of that figure. -/
theorem parseField_iff : parseField field = some x ↔
    ∃ negative n, Holds field negative n ∧ n.signed negative = x := by
  have hhead := Text.head_beforeNul (Text.stripped_trim field).head
  have hread : parseField field = some x ↔
      readDouble (Text.beforeNul (Text.trim field)) = some (x, []) := by
    unfold parseField
    split
    · rename_i y hy
      rw [hy, Option.some.injEq, Option.some.injEq, Prod.mk.injEq, and_iff_left rfl]
    · rename_i hno
      exact iff_of_false nofun (hno x)
  rw [hread, readDouble_iff hhead]
  constructor
  · rintro ⟨negative, n, sign, magnitude, hshown, hsign, hspelled, hx⟩
    exact ⟨negative, n, ⟨_, _, sign, magnitude, Text.stripped_trim field,
      Text.before_beforeNul.2 rfl, hshown, hsign, hspelled⟩, hx⟩
  · rintro ⟨negative, n, ⟨stripped, shown, sign, magnitude, hstripped, hnul, hshown, hsign, hspelled⟩, hx⟩
    obtain rfl := Text.trim_of_stripped hstripped
    obtain rfl := Text.before_beforeNul.1 hnul
    exact ⟨negative, n, sign, magnitude, hshown, hsign, hspelled, hx⟩

theorem exists_holds_iff {P : Double → Prop} :
    (∃ negative n, Holds field negative n ∧ P (n.signed negative)) ↔
      ∃ x, parseField field = some x ∧ P x := by
  constructor
  · rintro ⟨negative, n, hholds, hdouble⟩
    exact ⟨_, parseField_iff.2 ⟨negative, n, hholds, rfl⟩, hdouble⟩
  · rintro ⟨x, hx, hdouble⟩
    obtain ⟨negative, n, hholds, rfl⟩ := parseField_iff.1 hx
    exact ⟨negative, n, hholds, hdouble⟩

end GpuTelemetry.Decimal
