import GpuTelemetry.Sysfs.Attribute
import GpuTelemetry.Proofs.Text.Spelling

namespace GpuTelemetry.Sysfs

open Text (Before Stripped Spells signs decimalValue)

def Shows (t : FileTree) (p : FileTree.Path) (shown : Text) : Prop :=
  ∃ content line stripped, t.readText p = some content ∧ Before 10 content line ∧
    Stripped line stripped ∧ Before 0 stripped shown

def IsDecimal (s : Text) : Prop := s ≠ [] ∧ ∀ d ∈ s, 48 ≤ d ∧ d ≤ 57

def IsUnsigned (s : Text) (n : ℕ) : Prop := IsDecimal s ∧ decimalValue s = n

def IsSigned (s : Text) (i : ℤ) : Prop :=
  ∃ negative, ∃ sign ∈ signs negative, ∃ digits, s = sign ++ digits ∧ IsDecimal digits ∧
    i = if negative then -(decimalValue digits : ℤ) else decimalValue digits

def hexDigits : Text := utf8 "0123456789abcdef"

def IsHexadecimal (s : Text) : Prop := s ≠ [] ∧ ∀ d ∈ s, Text.lowerByte d ∈ hexDigits

def hexValue (s : Text) : ℕ :=
  Nat.ofDigits 16 (s.reverse.map fun d => hexDigits.idxOf (Text.lowerByte d))

/-- What may stand before hexadecimal digits: nothing, or a zero and an `x` or `X`. -/
def hexMarks : List Text := [[], [48, 120], [48, 88]]

def IsMarked (s : Text) (n : ℕ) : Prop :=
  ∃ mark ∈ hexMarks, ∃ digits, s = mark ++ digits ∧ IsHexadecimal digits ∧ hexValue digits = n

variable {s line sign digits mark : Text} {n : ℕ} {i : ℤ} {negative : Bool}

/-! ### What a line shows -/

theorem startsWithSign_eq_false :
    startsWithSign line = false ↔ ∀ b ∈ line.head?, b ≠ 45 ∧ b ≠ 43 := by
  cases line with
  | nil => simp [startsWithSign]
  | cons b r => simp [startsWithSign]

/-- A line that shows no sign has none. -/
theorem not_startsWithSign {b : UInt8} {r : Text} (hshown : Text.beforeNul line = b :: r)
    (hb : b ≠ 45 ∧ b ≠ 43) : startsWithSign line = false := by
  have hhead : line.head? = some b := by
    rw [← Text.head?_beforeNul (by simp [hshown]), hshown]
    rfl
  rw [startsWithSign_eq_false, hhead]
  rintro c hc
  obtain rfl := Option.some.inj hc
  exact hb

theorem no_sign_of_head (hsign : sign ∈ signs negative)
    (h : ∀ b ∈ (sign ++ digits).head?, b ≠ 45 ∧ b ≠ 43) : sign = [] ∧ negative = false := by
  obtain ⟨rfl, rfl⟩ | ⟨rfl, rfl | rfl⟩ := Text.mem_signs.1 hsign
  · exact absurd rfl (h 45 rfl).1
  · exact ⟨rfl, rfl⟩
  · exact absurd rfl (h 43 rfl).2

theorem wholeNumeral_eq_some (base : ℕ) {m : Text.Numeral} : wholeNumeral base line = some m ↔
    Text.readNumeral base (Text.beforeNul line) = some m ∧ m.rest = [] := by
  unfold wholeNumeral
  cases Text.readNumeral base (Text.beforeNul line) with
  | none => simp
  | some found =>
    dsimp only
    split
    · rename_i hrest
      simp only [Option.some.injEq]
      constructor
      · rintro rfl
        exact ⟨rfl, List.isEmpty_iff.1 hrest⟩
      · exact And.left
    · rename_i hrest
      simp only [reduceCtorEq, Option.some.injEq, false_iff, not_and]
      rintro rfl hnil
      exact hrest (List.isEmpty_iff.2 hnil)

/-! ### Decimal numbers -/

theorem wholeNumeral_ten_iff (h : ∀ b ∈ line.head?, Text.isBlank b = false) :
    wholeNumeral 10 line = some ⟨negative, n, []⟩ ↔
      ∃ sign ∈ signs negative, ∃ digits, Text.beforeNul line = sign ++ digits ∧ IsDecimal digits ∧
        decimalValue digits = n := by
  rw [wholeNumeral_eq_some, and_iff_left rfl, Text.readNumeral_iff]
  constructor
  · rintro ⟨numeral, hshown, ⟨blanks, sign, digits, rfl, hblanks, hsign, hne, hdigits, hvalue⟩, -⟩
    rw [List.append_nil] at hshown
    cases blanks with
    | nil => exact ⟨sign, hsign, digits, hshown, ⟨hne, hdigits⟩, hvalue⟩
    | cons b blanks =>
      -- a line does not begin with a blank
      have hblank := hblanks b List.mem_cons_self
      rw [Text.head_beforeNul h b (by rw [hshown]; rfl)] at hblank
      cases hblank
  · rintro ⟨sign, hsign, digits, hshown, ⟨hne, hdigits⟩, hvalue⟩
    exact ⟨_, (List.append_nil _).symm,
      ⟨[], sign, digits, hshown, nofun, hsign, hne, hdigits, hvalue⟩, nofun⟩

theorem unsigned?_eq_some {v : UInt64} : unsigned? line = some v ↔ startsWithSign line = false ∧
    ∃ m, wholeNumeral 10 line = some m ∧ m.overflows = false ∧ m.word = v := by
  unfold unsigned?
  cases startsWithSign line with
  | true => simp
  | false => cases wholeNumeral 10 line <;> simp

/-- Without a sign: decimal digits of a 64-bit word. -/
theorem unsigned?_iff (h : ∀ b ∈ line.head?, Text.isBlank b = false) :
    (unsigned? line).map UInt64.toNat = some n ↔
      IsUnsigned (Text.beforeNul line) n ∧ n < 2 ^ 64 := by
  simp only [Option.map_eq_some_iff, unsigned?_eq_some]
  constructor
  · rintro ⟨v, ⟨hsign, ⟨negative, n, rest⟩, hwhole, hfits, rfl⟩, rfl⟩
    obtain rfl : rest = [] := ((wholeNumeral_eq_some 10).1 hwhole).2
    obtain ⟨sign, hmem, digits, hshown, hdigits, rfl⟩ := (wholeNumeral_ten_iff h).1 hwhole
    -- the reader refuses a sign of either kind before it looks at the digits
    have hhead := Text.head_beforeNul (startsWithSign_eq_false.1 hsign)
    rw [hshown] at hhead
    obtain ⟨rfl, rfl⟩ := no_sign_of_head hmem hhead
    have hlt : decimalValue digits < 2 ^ 64 := by simpa [Text.Numeral.overflows] using hfits
    rw [hshown, List.nil_append, Text.toNat_word, Text.wordValue_of_lt hlt]
    exact ⟨⟨hdigits, rfl⟩, hlt⟩
  · rintro ⟨⟨hdigits, rfl⟩, hlt⟩
    obtain ⟨d, ds, hshown⟩ := List.exists_cons_of_ne_nil hdigits.1
    have hd := Text.not_sign_of_digit d (hdigits.2 d (by simp [hshown]))
    have hwhole : wholeNumeral 10 line = some ⟨false, decimalValue (Text.beforeNul line), []⟩ :=
      (wholeNumeral_ten_iff h).2 ⟨[], by simp [signs], _, rfl, hdigits, rfl⟩
    refine ⟨_, ⟨not_startsWithSign hshown hd, _, hwhole, ?_, rfl⟩, ?_⟩
    · simpa [Text.Numeral.overflows] using hlt
    · rw [Text.toNat_word, Text.wordValue_of_lt hlt]

theorem signed?_eq_some {v : Int64} : signed? line = some v ↔
    ∃ m, wholeNumeral 10 line = some m ∧ (-2 ^ 63 ≤ m.toInt ∧ m.toInt ≤ 2 ^ 63 - 1) ∧
      m.toInt.toInt64 = v := by
  unfold signed?
  -- the bounds of the code are those of the word
  have hleast : Int64.minValue.toInt = -2 ^ 63 := by decide
  have hgreatest : Int64.maxValue.toInt = 2 ^ 63 - 1 := by decide
  rw [hleast, hgreatest]
  cases wholeNumeral 10 line with
  | none => simp
  | some m =>
    dsimp only
    by_cases hrange : -2 ^ 63 ≤ m.toInt ∧ m.toInt ≤ 2 ^ 63 - 1
    · rw [if_pos hrange, Option.some.injEq]
      constructor
      · exact fun hv => ⟨m, rfl, hrange, hv⟩
      · rintro ⟨_, hm, -, hv⟩
        cases hm
        exact hv
    · rw [if_neg hrange]
      constructor
      · exact nofun
      · rintro ⟨_, hm, hrange', -⟩
        cases hm
        exact absurd hrange' hrange

theorem toInt_toInt64 (h : -2 ^ 63 ≤ i ∧ i ≤ 2 ^ 63 - 1) : i.toInt64.toInt = i :=
  Int64.toInt_ofInt_of_le h.1 (by omega)

/-- With a sign or without: decimal digits of a signed 64-bit word. -/
theorem signed?_iff (h : ∀ b ∈ line.head?, Text.isBlank b = false) :
    (signed? line).map Int64.toInt = some i ↔
      IsSigned (Text.beforeNul line) i ∧ -2 ^ 63 ≤ i ∧ i ≤ 2 ^ 63 - 1 := by
  simp only [Option.map_eq_some_iff, signed?_eq_some]
  constructor
  · rintro ⟨v, ⟨⟨negative, n, rest⟩, hwhole, hrange, rfl⟩, rfl⟩
    obtain rfl : rest = [] := ((wholeNumeral_eq_some 10).1 hwhole).2
    obtain ⟨sign, hmem, digits, hshown, hdigits, rfl⟩ := (wholeNumeral_ten_iff h).1 hwhole
    rw [toInt_toInt64 hrange]
    exact ⟨⟨negative, sign, hmem, digits, hshown, hdigits, rfl⟩, hrange⟩
  · rintro ⟨⟨negative, sign, hmem, digits, hshown, hdigits, rfl⟩, hrange⟩
    have hwhole := (wholeNumeral_ten_iff h).2 ⟨sign, hmem, digits, hshown, hdigits, rfl⟩
    exact ⟨_, ⟨_, hwhole, hrange, rfl⟩, toInt_toInt64 hrange⟩

/-! ### Hexadecimal numbers -/

/-- The digits are those of the reader, with their values; none is a sign or the letter of the mark. -/
theorem hexDigit_facts : ∀ b : UInt8,
    (Text.isDigit 16 b = true ↔ Text.lowerByte b ∈ hexDigits) ∧ (Text.lowerByte b ∈ hexDigits →
      Text.digitValue b = hexDigits.idxOf (Text.lowerByte b) ∧ (b ≠ 45 ∧ b ≠ 43) ∧
      Text.lowerByte b ≠ 120) :=
  Text.forall_byte (by decide +kernel)

theorem isDigit_sixteen_iff (b : UInt8) : Text.isDigit 16 b = true ↔ Text.lowerByte b ∈ hexDigits :=
  (hexDigit_facts b).1

theorem digitsValue_hex (h : IsHexadecimal digits) : Text.digitsValue 16 digits = hexValue digits :=
  Text.digitsValue_eq_ofDigits fun d hd => ((hexDigit_facts d).2 (h.2 d hd)).1

theorem dropHexMark_append (hmark : mark ∈ hexMarks) (h : IsHexadecimal digits) :
    Text.dropHexMark (mark ++ digits) = digits := by
  obtain rfl | hmark : mark = [] ∨ mark ∈ [[48, 120], [48, 88]] := List.mem_cons.1 hmark
  · rw [List.nil_append]
    fun_cases Text.dropHexMark digits with
    | case1 x d r hx =>
      -- the letter of the mark is no digit
      have hletter : Text.lowerByte x = 120 := (by simpa using hx : _ ∧ _).1
      exact absurd hletter ((hexDigit_facts x).2 (h.2 x (by simp))).2.2
    | case2 x d r hx => rfl
    | case3 => rfl
  · obtain ⟨d, r, rfl⟩ := List.exists_cons_of_ne_nil h.1
    have hd : Text.isDigit 16 d = true := (isDigit_sixteen_iff d).2 (h.2 d List.mem_cons_self)
    obtain rfl | rfl : mark = [48, 120] ∨ mark = [48, 88] := by simpa using hmark
    · simp [Text.dropHexMark, hd, Text.lowerByte]
    · simp [Text.dropHexMark, hd, Text.lowerByte]

/-- What is dropped in front of hexadecimal digits is a mark. -/
theorem dropHexMark_cases (s : Text) : ∃ mark ∈ hexMarks, s = mark ++ Text.dropHexMark s := by
  fun_cases Text.dropHexMark s with
  | case1 x d r hx =>
    have hletter : Text.lowerByte x = 120 := (by simpa using hx : _ ∧ _).1
    obtain rfl | ⟨-, rfl⟩ := Text.eq_of_lowerByte hletter
    · exact ⟨[48, 120], by simp [hexMarks], rfl⟩
    · exact ⟨[48, 88], by simp [hexMarks], rfl⟩
  | case2 x d r hx => exact ⟨[], by simp [hexMarks], rfl⟩
  | case3 s hs => exact ⟨[], by simp [hexMarks], rfl⟩

/-- A text that begins with no blank and no sign is a hexadecimal numeral if it is digits behind a mark. -/
theorem readNumeral_sixteen_iff (hblank : ∀ b ∈ s.head?, Text.isBlank b = false)
    (hsign : ∀ b ∈ s.head?, b ≠ 45 ∧ b ≠ 43) :
    Text.readNumeral 16 s = some ⟨negative, n, []⟩ ↔ negative = false ∧ IsMarked s n := by
  -- without blanks and signs only the mark and the digits remain to be read
  have hread : Text.readNumeral 16 s =
      if ((Text.dropHexMark s).takeWhile (Text.isDigit 16)).isEmpty then none
      else some ⟨false, Text.digitsValue 16 ((Text.dropHexMark s).takeWhile (Text.isDigit 16)),
        (Text.dropHexMark s).dropWhile (Text.isDigit 16)⟩ := by
    simp only [Text.readNumeral, Text.dropBlank_of_head hblank, Text.takeSign_of_head hsign, if_true]
  rw [hread]
  constructor
  · intro h
    split at h
    · cases h
    · rename_i hne
      simp only [Option.some.injEq, Text.Numeral.mk.injEq] at h
      obtain ⟨rfl, hvalue, hrest⟩ := h
      have hall : ∀ d ∈ Text.dropHexMark s, Text.isDigit 16 d = true := List.dropWhile_eq_nil_iff.1 hrest
      rw [List.takeWhile_eq_self_iff.2 hall] at hne hvalue
      have hdigits : IsHexadecimal (Text.dropHexMark s) :=
        ⟨by simpa using hne, fun d hd => (isDigit_sixteen_iff d).1 (hall d hd)⟩
      obtain ⟨mark, hmark, hs⟩ := dropHexMark_cases s
      exact ⟨rfl, mark, hmark, _, hs, hdigits, by rw [← digitsValue_hex hdigits, hvalue]⟩
  · rintro ⟨rfl, mark, hmark, digits, rfl, hdigits, rfl⟩
    have hall : ∀ d ∈ digits, Text.isDigit 16 d = true := fun d hd =>
      (isDigit_sixteen_iff d).2 (hdigits.2 d hd)
    rw [dropHexMark_append hmark hdigits, List.takeWhile_eq_self_iff.2 hall,
      List.dropWhile_eq_nil_iff.2 hall, digitsValue_hex hdigits]
    simp [hdigits.1]

theorem head_of_hex (hmark : mark ∈ hexMarks) (h : IsHexadecimal digits) :
    ∃ b r, mark ++ digits = b :: r ∧ b ≠ 45 ∧ b ≠ 43 := by
  obtain rfl | hmark : mark = [] ∨ mark ∈ [[48, 120], [48, 88]] := List.mem_cons.1 hmark
  · obtain ⟨d, r, rfl⟩ := List.exists_cons_of_ne_nil h.1
    exact ⟨d, r, rfl, ((hexDigit_facts d).2 (h.2 d List.mem_cons_self)).2.1⟩
  · obtain rfl | rfl : mark = [48, 120] ∨ mark = [48, 88] := by simpa using hmark
    · exact ⟨48, _, rfl, by decide⟩
    · exact ⟨48, _, rfl, by decide⟩

theorem hexadecimal?_eq_some {v : UInt32} : hexadecimal? line = some v ↔ startsWithSign line = false ∧
    ∃ m, wholeNumeral 16 line = some m ∧ m.magnitude < 2 ^ 32 ∧ m.magnitude.toUInt32 = v := by
  unfold hexadecimal?
  cases startsWithSign line with
  | true => simp
  | false => cases wholeNumeral 16 line <;> simp [UInt32.size]

/-- Hexadecimal digits of a 32-bit word, with a mark or without. -/
theorem hexadecimal?_iff (h : ∀ b ∈ line.head?, Text.isBlank b = false) :
    (hexadecimal? line).map UInt32.toNat = some n ↔
      IsMarked (Text.beforeNul line) n ∧ n < 2 ^ 32 := by
  have hword {k : ℕ} (hk : k < 2 ^ 32) : k.toUInt32.toNat = k := UInt32.toNat_ofNat_of_lt' hk
  simp only [Option.map_eq_some_iff, hexadecimal?_eq_some, wholeNumeral_eq_some]
  constructor
  · rintro ⟨v, ⟨hsign, ⟨negative, k, rest⟩, ⟨hread, rfl⟩, hlt, rfl⟩, rfl⟩
    -- a sign was refused before the number was read
    have hnosign := Text.head_beforeNul (startsWithSign_eq_false.1 hsign)
    obtain ⟨-, hmarked⟩ := (readNumeral_sixteen_iff (Text.head_beforeNul h) hnosign).1 hread
    rw [hword hlt]
    exact ⟨hmarked, hlt⟩
  · rintro ⟨⟨mark, hmark, digits, hshown, hdigits, rfl⟩, hlt⟩
    obtain ⟨b, r, hb, hsign⟩ := head_of_hex hmark hdigits
    have hline := not_startsWithSign (hshown.trans hb) hsign
    have hnosign := Text.head_beforeNul (startsWithSign_eq_false.1 hline)
    have hread := (readNumeral_sixteen_iff (Text.head_beforeNul h) hnosign).2
      ⟨rfl, mark, hmark, digits, hshown, hdigits, rfl⟩
    exact ⟨_, ⟨hline, _, ⟨hread, rfl⟩, hlt, rfl⟩, hword hlt⟩

/-! ### Files -/

/-- A line is read if something is left of it. -/
theorem readLine_eq_some {t : FileTree} {p : FileTree.Path} : t.readLine p = some line ↔
    ∃ content, t.readText p = some content ∧ Text.trim (Text.firstLine content) = line ∧ line ≠ [] := by
  unfold FileTree.readLine
  cases t.readText p with
  | none => simp
  | some content =>
    dsimp only
    split
    · rename_i hempty
      simp only [Option.some.injEq, exists_eq_left', reduceCtorEq, false_iff, not_and]
      rintro rfl hne
      exact hne (List.isEmpty_iff.1 hempty)
    · rename_i hempty
      simp only [Option.some.injEq, exists_eq_left', iff_self_and]
      rintro rfl hnil
      exact hempty (List.isEmpty_iff.2 hnil)

/-- A reader of lines that goes by what they show reads a file by what it shows. -/
theorem read_iff {α : Type} {t : FileTree} {p : FileTree.Path} {reader : Text → Option α}
    {accepts : Text → Prop} {v : α} (hempty : ¬ accepts [])
    (hreader : ∀ line, (∀ b ∈ line.head?, Text.isBlank b = false) →
      (reader line = some v ↔ accepts (Text.beforeNul line))) :
    (t.readLine p).bind reader = some v ↔ ∃ shown, Shows t p shown ∧ accepts shown := by
  rw [Option.bind_eq_some_iff]
  constructor
  · rintro ⟨line, hline, hv⟩
    obtain ⟨content, hcontent, rfl, hne⟩ := readLine_eq_some.1 hline
    have hstripped := Text.stripped_trim (Text.firstLine content)
    exact ⟨_, ⟨content, _, _, hcontent, Text.before_firstLine.2 rfl, hstripped,
      Text.before_beforeNul.2 rfl⟩, (hreader _ hstripped.head).1 hv⟩
  · rintro ⟨shown, ⟨content, line, stripped, hcontent, hfirst, hstripped, hnul⟩, haccepts⟩
    obtain rfl := Text.before_firstLine.1 hfirst
    obtain rfl := Text.before_beforeNul.1 hnul
    refine ⟨stripped, readLine_eq_some.2 ⟨content, hcontent, Text.trim_of_stripped hstripped, ?_⟩,
      (hreader _ hstripped.head).2 haccepts⟩
    rintro rfl
    exact hempty haccepts

theorem readUnsigned32_iff {t : FileTree} {p : FileTree.Path} :
    (readUnsigned32 t p).map UInt32.toNat = some n ↔
      (readUnsigned t p).map UInt64.toNat = some n ∧ n < 2 ^ 32 := by
  unfold readUnsigned32
  cases readUnsigned t p with
  | none => simp
  | some v =>
    dsimp only
    split
    · rename_i hlt
      have hword : v.toUInt32.toNat = v.toNat := by
        rw [UInt64.toNat_toUInt32]
        exact Nat.mod_eq_of_lt hlt
      simp only [Option.map_some, hword, Option.some.injEq, iff_self_and]
      rintro rfl
      exact hlt
    · rename_i hlarge
      simp only [Option.map_none, Option.map_some, reduceCtorEq, Option.some.injEq, false_iff, not_and]
      rintro rfl
      exact hlarge

/-- **The readers of numbers accept exactly their grammars.** From a file is read what its first line shows,
as an unsigned, a signed or a hexadecimal number; the reader of narrower numbers reads what the reader of
unsigned ones does. A number is read if all that is shown is a numeral of it and it is in range, and in no
other case is anything read. -/
theorem readers_accept_grammars (t : FileTree) (p : FileTree.Path) :
    (∀ n, (readUnsigned t p).map UInt64.toNat = some n ↔
      ∃ shown, Shows t p shown ∧ IsUnsigned shown n ∧ n < 2 ^ 64) ∧
    (∀ i, (readSigned t p).map Int64.toInt = some i ↔
      ∃ shown, Shows t p shown ∧ IsSigned shown i ∧ -2 ^ 63 ≤ i ∧ i ≤ 2 ^ 63 - 1) ∧
    (∀ n, (readHexadecimal t p).map UInt32.toNat = some n ↔
      ∃ shown, Shows t p shown ∧ IsMarked shown n ∧ n < 2 ^ 32) ∧
    ∀ n, (readUnsigned32 t p).map UInt32.toNat = some n ↔
      (readUnsigned t p).map UInt64.toNat = some n ∧ n < 2 ^ 32 := by
  -- a file of blanks shows nothing, and none of the grammars has the empty text
  refine ⟨?_, ?_, ?_, fun n => readUnsigned32_iff⟩
  · intro n
    rw [readUnsigned, Option.map_bind]
    apply read_iff
    · rintro ⟨⟨⟨hne, -⟩, -⟩, -⟩
      exact hne rfl
    · exact fun line hline => unsigned?_iff hline
  · intro i
    rw [readSigned, Option.map_bind]
    apply read_iff
    · rintro ⟨⟨negative, sign, -, digits, hnil, ⟨hne, -⟩, -⟩, -⟩
      exact hne (List.append_eq_nil_iff.1 hnil.symm).2
    · exact fun line hline => signed?_iff hline
  · intro n
    rw [readHexadecimal, Option.map_bind]
    apply read_iff
    · rintro ⟨⟨mark, -, digits, hnil, ⟨hne, -⟩, -⟩, -⟩
      exact hne (List.append_eq_nil_iff.1 hnil.symm).2
    · exact fun line hline => hexadecimal?_iff hline

end GpuTelemetry.Sysfs
