import GpuTelemetry.Sysfs.Tree
import GpuTelemetry.Text.Numeral
/-!
Attributes that hold one number. A file that is missing, or whose first line is anything but a number
that fits, has no value, which is not the same as zero.
-/

namespace GpuTelemetry.Sysfs

open Text (readNumeral)

/-- A numeral that takes up the whole line; what follows a NUL does not count. -/
def wholeNumeral (base : Nat) (line : Text) : Option Text.Numeral :=
  match readNumeral base (Text.beforeNul line) with
  | some n => if n.rest.isEmpty then some n else none
  | none => none

def startsWithSign (line : Text) : Bool := line.head? == some 45 || line.head? == some 43

/-- Decimal digits without a sign, below 2^64. -/
def unsigned? (line : Text) : Option UInt64 :=
  if startsWithSign line then none
  else match wholeNumeral 10 line with
    | some n => if n.overflows then none else some n.word
    | none => none

/-- Decimal digits with or without a sign, within 64 signed bits. -/
def signed? (line : Text) : Option Int64 :=
  match wholeNumeral 10 line with
  | some n =>
    if Int64.minValue.toInt ≤ n.toInt ∧ n.toInt ≤ Int64.maxValue.toInt then some n.toInt.toInt64
    else none
  | none => none

/-- Hexadecimal digits without a sign, `0x` before them or not, below 2^32. -/
def hexadecimal? (line : Text) : Option UInt32 :=
  if startsWithSign line then none
  else match wholeNumeral 16 line with
    | some n => if n.magnitude < UInt32.size then some n.magnitude.toUInt32 else none
    | none => none

def readUnsigned (t : FileTree) (p : FileTree.Path) : Option UInt64 := (t.readLine p).bind unsigned?

def readSigned (t : FileTree) (p : FileTree.Path) : Option Int64 := (t.readLine p).bind signed?

def readHexadecimal (t : FileTree) (p : FileTree.Path) : Option UInt32 :=
  (t.readLine p).bind hexadecimal?

/-- Decimal digits without a sign, below 2^32. -/
def readUnsigned32 (t : FileTree) (p : FileTree.Path) : Option UInt32 :=
  match readUnsigned t p with
  | some n => if n.toNat < UInt32.size then some n.toUInt32 else none
  | none => none

end GpuTelemetry.Sysfs
