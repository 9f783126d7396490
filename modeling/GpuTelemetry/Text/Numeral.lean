import GpuTelemetry.Text.Basic
/-!
Integers read from text. A reader takes the longest numeral at the start of a text and says what is
left; whether the rest must be empty is the caller's rule.
-/

namespace GpuTelemetry.Text

/-- The value of a digit or letter, `a` and `A` being ten. -/
def digitValue (b : UInt8) : Nat :=
  if 48 ≤ b && b ≤ 57 then b.toNat - 48
  else if 97 ≤ b && b ≤ 122 then b.toNat - 87
  else if 65 ≤ b && b ≤ 90 then b.toNat - 55
  else 36

def isDigit (base : Nat) (b : UInt8) : Bool := digitValue b < base

/-- The value of a string of digits. -/
def digitsValue (base : Nat) (ds : Text) : Nat := ds.foldl (fun n b => base * n + digitValue b) 0

/-- An optional sign and what follows it. -/
def takeSign : Text → Bool × Text
  | 45 :: r => (true, r)
  | 43 :: r => (false, r)
  | s => (false, s)

/-- Drops `0x` where a hexadecimal digit follows it. -/
def dropHexMark : Text → Text
  | 48 :: x :: d :: r => if lowerByte x = 120 && isDigit 16 d then d :: r else 48 :: x :: d :: r
  | s => s

/-- A numeral found at the start of a text: its sign, its exact magnitude and the text after it. -/
structure Numeral where
  negative : Bool
  magnitude : Nat
  rest : Text
deriving DecidableEq, Repr

/-- Blanks, an optional sign, in base 16 an optional `0x`, and at least one digit. -/
def readNumeral (base : Nat) (s : Text) : Option Numeral :=
  let (negative, r) := takeSign (dropBlank s)
  let r := if base = 16 then dropHexMark r else r
  let ds := r.takeWhile (isDigit base)
  if ds.isEmpty then none
  else some ⟨negative, digitsValue base ds, r.dropWhile (isDigit base)⟩

namespace Numeral

/-- The magnitude does not fit in 64 bits. -/
def overflows (n : Numeral) : Bool := UInt64.size ≤ n.magnitude

/-- As a 64-bit word: too large a magnitude gives the largest word, a minus sign negates. -/
def word (n : Numeral) : UInt64 :=
  if n.overflows then UInt64.ofNat (UInt64.size - 1)
  else if n.negative then 0 - n.magnitude.toUInt64
  else n.magnitude.toUInt64

def toInt (n : Numeral) : Int := if n.negative then -(n.magnitude : Int) else n.magnitude

end Numeral

end GpuTelemetry.Text
