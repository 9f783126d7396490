import GpuTelemetry.Text.Numeral
import GpuTelemetry.Text.Quoted
import Mathlib.Data.List.Forall2

namespace GpuTelemetry.Json

/-! ### Tokens -/

def Blank (s : Text) : Prop := ∀ b ∈ s, b = 32 ∨ b = 9 ∨ b = 10 ∨ b = 13

inductive Character : Text → Prop where
  | plain {b : UInt8} : 32 ≤ b → b ≠ 34 → b ≠ 92 → Character [b]
  | escaped {b : UInt8} : b ∈ utf8 "\"\\/bfnrt" → Character [92, b]
  | unicode {ds : Text} : ds.length = 4 → (∀ d ∈ ds, Text.isDigit 16 d = true) →
      Character (92 :: 117 :: ds)

inductive Characters : Text → Prop where
  | nil : Characters []
  | cons {c s : Text} : Character c → Characters s → Characters (c ++ s)

inductive IsString : Text → Prop where
  | quoted {s : Text} : Characters s → IsString (34 :: s ++ [34])

def DigitRun (s : Text) : Prop := s ≠ [] ∧ ∀ d ∈ s, Text.isDigit 10 d = true

def Whole (s : Text) : Prop := DigitRun s ∧ (s.head? = some 48 → s = [48])

inductive Fraction : Text → Prop where
  | none : Fraction []
  | places {ds : Text} : DigitRun ds → Fraction (46 :: ds)

inductive Exponent : Text → Prop where
  | none : Exponent []
  | power {mark : UInt8} {sign ds : Text} : mark = 101 ∨ mark = 69 →
      sign = [] ∨ sign = [43] ∨ sign = [45] → DigitRun ds → Exponent (mark :: sign ++ ds)

inductive Magnitude : Text → Prop where
  | parts {whole fraction exponent : Text} : Whole whole → Fraction fraction → Exponent exponent →
      Magnitude (whole ++ fraction ++ exponent)

inductive IsNumber : Text → Prop where
  | plus {s : Text} : Magnitude s → IsNumber s
  | minus {s : Text} : Magnitude s → IsNumber (45 :: s)

/-! ### Values -/

structure Spaced where
  before : Text
  body : Text
  after : Text
  blankBefore : Blank before
  blankAfter : Blank after

def Spaced.text (x : Spaced) : Text := x.before ++ x.body ++ x.after

structure Member where
  name : Spaced
  value : Spaced

def Member.text (m : Member) : Text := m.name.text ++ 58 :: m.value.text

def Member.said (m : Member) : Text × Text := (m.name.body, m.value.body)

def bracketed (opening closing : UInt8) (lead : Text) (items : List Text) : Text :=
  opening :: lead ++ Text.sep [44] items ++ [closing]

inductive Value : Text → Prop where
  | null : Value (utf8 "null")
  | yes : Value (utf8 "true")
  | no : Value (utf8 "false")
  | string {s : Text} : IsString s → Value s
  | number {s : Text} : IsNumber s → Value s
  | array {lead : Text} {items : List Spaced} : Blank lead → (∀ x ∈ items, Value x.body) →
      Value (bracketed 91 93 lead (items.map Spaced.text))
  | object {lead : Text} {members : List Member} : Blank lead →
      (∀ m ∈ members, IsString m.name.body) → (∀ m ∈ members, Value m.value.body) →
      Value (bracketed 123 125 lead (members.map Member.text))

/-- An object whose members say `said`, in this order. -/
inductive IsObject (said : List (Text × Text)) : Text → Prop where
  | members {lead : Text} {members : List Member} : Blank lead →
      (∀ m ∈ members, IsString m.name.body) → (∀ m ∈ members, Value m.value.body) →
      members.map Member.said = said →
      IsObject said (bracketed 123 125 lead (members.map Member.text))

theorem IsObject.value {said : List (Text × Text)} {s : Text} (h : IsObject said s) : Value s := by
  cases h with
  | members hlead hnames hvalues _ => exact .object hlead hnames hvalues

/-! ### What is written -/

theorem blank_nil : Blank [] := nofun

def Spaced.tight (body : Text) : Spaced := ⟨[], body, [], blank_nil, blank_nil⟩

@[simp] theorem Spaced.text_tight (body : Text) : (Spaced.tight body).text = body := by
  simp [tight, text]

/-- The codes of control characters have four hexadecimal digits. -/
theorem control_code : ∀ n < 32, (Text.ofNatHex 4 n).length = 4 ∧
    ∀ d ∈ Text.ofNatHex 4 n, Text.isDigit 16 d = true := by decide +kernel

/-- Every byte can be escaped. -/
theorem character_escapeByte (b : UInt8) : Character (Text.escapeByte b) := by
  unfold Text.escapeByte
  by_cases hquote : b = 34
  · rw [if_pos hquote]
    exact .escaped (by decide)
  rw [if_neg hquote]
  by_cases hslash : b = 92
  · rw [if_pos hslash]
    exact .escaped (by decide)
  rw [if_neg hslash]
  split
  · exact .escaped (by decide)
  split
  · exact .escaped (by decide)
  split
  · exact .escaped (by decide)
  -- what is left is a control character without a letter of its own, or stands for itself
  split
  case isTrue hcontrol =>
    obtain ⟨hlength, hdigits⟩ := control_code b.toNat (UInt8.lt_iff_toNat_lt.1 hcontrol)
    exact .unicode hlength hdigits
  case isFalse hcontrol => exact .plain (UInt8.not_lt.1 hcontrol) hquote hslash

/-- Every text can be quoted. -/
theorem isString_quote (s : Text) : IsString (Text.quote s) := by
  refine .quoted ?_
  induction s with
  | nil => exact .nil
  | cons b s ih => exact .cons (character_escapeByte b) ih

theorem exists_of_forall₂ {α β : Type} {R : α → β → Prop} {as : List α} {bs : List β}
    (h : List.Forall₂ R as bs) : ∀ b ∈ bs, ∃ a, R a b := by
  induction h with
  | nil => exact nofun
  | cons hab _ ih => exact List.forall_mem_cons.2 ⟨⟨_, hab⟩, ih⟩

/-- Members whose values are JSON make an object that says what they are. -/
theorem isObject_object {members : List (Text × Text)} (h : ∀ m ∈ members, Value m.2) :
    IsObject (members.map fun m => (Text.quote m.1, m.2)) (Text.object members) := by
  have htext : Text.object members = bracketed 123 125 [] ((members.map fun m =>
      Member.mk (.tight (Text.quote m.1)) (.tight m.2)).map Member.text) := by
    rw [Text.object, bracketed, List.map_map]
    simp [Member.text, Function.comp_def]
  rw [htext]
  refine .members blank_nil ?_ ?_ ?_
  · intro x hx
    obtain ⟨m, _, rfl⟩ := List.mem_map.1 hx
    exact isString_quote m.1
  · intro x hx
    obtain ⟨m, hm, rfl⟩ := List.mem_map.1 hx
    exact h m hm
  · rw [List.map_map]
    rfl

end GpuTelemetry.Json
