import GpuTelemetry.Text.Basic
/-!
Doubles as exact numbers. A finite double is a sign and `significand * 2 ^ exponent`; everything that
writes or rounds one works on that pair in exact integer arithmetic.
-/

namespace GpuTelemetry.Decimal

/-- A measured number. Where `Float` has one value that is not a number, this has two, which differ in
the sign they are written with. -/
structure Double where
  value : Float
  /-- The sign of a value that is not a number; any other value has its own. -/
  negativeNan : Bool := false
deriving Inhabited

namespace Double

def ofFloat (x : Float) : Double := { value := x }

/-- Agreement as numbers; what is not a number agrees with nothing. -/
instance : BEq Double := ⟨fun x y => x.value == y.value⟩

def neg (x : Double) : Double := ⟨-x.value, x.value.isNaN && !x.negativeNan⟩

/-- The first term that is not a number is the sum. Opposite infinities have no sum, and that is
written as a negative. -/
def add (x y : Double) : Double :=
  if x.value.isNaN then x
  else if y.value.isNaN then y
  else ⟨x.value + y.value, (x.value + y.value).isNaN⟩

def divBy (x : Double) (n : Float) : Double := { x with value := x.value / n }

end Double

/-- What a double stands for. -/
inductive Binary64 where
  | nan
  | infinite (negative : Bool)
  | finite (negative : Bool) (significand : Nat) (exponent : Int)
deriving DecidableEq, Repr

/-- Splits the bits of a double into sign, exponent and fraction. -/
def Binary64.ofFloat (x : Float) : Binary64 :=
  let bits := x.toBits.toNat
  let negative := bits.testBit 63
  let biased : Nat := bits / Nat.pow 2 52 % Nat.pow 2 11
  let fraction := bits % Nat.pow 2 52
  if biased = 2047 then if fraction = 0 then .infinite negative else .nan
  else if biased = 0 then .finite negative fraction (-1074)
  else .finite negative (Nat.pow 2 52 + fraction) ((biased : Int) - 1075)

/-- `significand * 2 ^ exponent` as numerator and denominator. -/
def ratio (significand : Nat) (exponent : Int) : Nat × Nat :=
  if exponent < 0 then (significand, Nat.pow 2 exponent.natAbs)
  else (significand * Nat.pow 2 exponent.natAbs, 1)

/-- The integer nearest to `num / den`, a half going to the even neighbour. -/
def roundHalfEven (num den : Nat) : Nat :=
  let t := num / den
  let r := num % den
  if 2 * r < den then t else if den < 2 * r then t + 1 else t + t % 2

/-- The integer nearest to `num / den`, a half going up. -/
def roundHalfUp (num den : Nat) : Nat := (2 * num + den) / (2 * den)

/-- The integer nearest to a finite double, a half going away from zero. -/
def nearestInt? (x : Float) : Option Int :=
  match Binary64.ofFloat x with
  | .finite negative m e =>
    let (num, den) := ratio m e
    let n : Int := roundHalfUp num den
    some (if negative then -n else n)
  | _ => none

/-- `nearestInt?` as a signed 64-bit word; what does not fit gives the least word. -/
def nearestInt64 (x : Float) : Int64 :=
  match nearestInt? x with
  | some n => if Int64.minValue.toInt ≤ n ∧ n ≤ Int64.maxValue.toInt then n.toInt64 else Int64.minValue
  | none => Int64.minValue

/-- The double nearest to an integer. -/
def floatOfInt (i : Int) : Float :=
  if i < 0 then -(Float.ofScientific i.natAbs false 0) else Float.ofScientific i.natAbs false 0

end GpuTelemetry.Decimal
