import GpuTelemetry.Text.Quoted
import GpuTelemetry.Decimal.Layout
/-!
How measured values are written. An absent value is `N/A` for a reader and `null` in JSON, never a
number, so that "unsupported" and "zero" stay apart.
-/

namespace GpuTelemetry.Quantity

open Decimal (plain)

def notAvailable : Text := utf8 "N/A"

/-- A value and its unit after a space, where there is a unit. -/
def orNa {α : Type} (write : α → Text) (unit : Text) : Option α → Text
  | none => notAvailable
  | some a => if unit.isEmpty then write a else write a ++ 32 :: unit

def orNull {α : Type} (write : α → Text) : Option α → Text
  | none => Text.null
  | some a => write a

def word32 (n : UInt32) : Text := Text.ofNat n.toNat

def word64 (n : UInt64) : Text := Text.ofNat n.toNat

/-- Binary units and the least count written in each, the largest first. -/
def binaryUnits : List (UInt64 × Text) :=
  [(0x10000000000, utf8 "TiB"), (0x40000000, utf8 "GiB"), (0x100000, utf8 "MiB"), (0x400, utf8 "KiB")]

/-- A byte count with one decimal in the largest unit it fills. -/
def bytes (n : UInt64) : Text :=
  match binaryUnits.find? fun u => u.1 ≤ n with
  | some (size, unit) => plain.fixed 1 (.ofFloat (n.toFloat / size.toFloat)) ++ 32 :: unit
  | none => word64 n ++ utf8 " B"

def bytesOrNa : Option UInt64 → Text := orNa bytes []

def yesNo : Option Bool → Text
  | some true => utf8 "yes"
  | some false => utf8 "no"
  | none => notAvailable

end GpuTelemetry.Quantity
