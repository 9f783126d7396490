import GpuTelemetry.Decimal.Binary64
/-!
The fewest decimal digits that read back as a given double. For one digit, two digits and so on the
two neighbours of the value on that decimal grid are tested against the interval of reals that round
to it; the first grid with a hit wins, of two hits the nearer.
-/

namespace GpuTelemetry.Decimal

/-- The reals that round to a double, all over one denominator: the value, the ends of the interval
and whether the ends belong to it. -/
structure Interval where
  value : Nat
  low : Nat
  high : Nat
  den : Nat
  closed : Bool

/-- The rounding interval of `significand * 2 ^ exponent`. Below a power of two the spacing halves,
except at the bottom of the exponent range. -/
def Interval.of (significand : Nat) (exponent : Int) : Interval :=
  let (num, den) := ratio significand exponent
  let (ulp, _) := ratio 1 exponent
  let narrow := significand = Nat.pow 2 52 ∧ exponent ≠ -1074
  { value := 4 * num
    low := 4 * num - if narrow then ulp else 2 * ulp
    high := 4 * num + 2 * ulp
    den := 4 * den
    closed := significand % 2 = 0 }

/-- Whether `num / den` rounds to the double. -/
def Interval.holds (iv : Interval) (num den : Nat) : Bool :=
  let x := num * iv.den
  if iv.closed then iv.low * den ≤ x && x ≤ iv.high * den
  else iv.low * den < x && x < iv.high * den

/-- The exponent of the first digit of `num / den`, which is not zero. -/
def leadingExponent (num den : Nat) : Int :=
  if den ≤ num then (Nat.toDigits 10 (num / den)).length - 1
  else -((Nat.toDigits 10 ((den + num - 1) / num - 1)).length : Int)

/-- Decimal digits `n` in units of `10 ^ exponent`. -/
structure Digits where
  n : Nat
  exponent : Int
deriving DecidableEq, Repr

/-- The neighbour of the value on the grid of `10 ^ k` that lies in the interval, if any: the nearer
of two, and of two as near the even one. -/
def Interval.onGrid (iv : Interval) (k : Int) : Option Nat :=
  let up := if k < 0 then Nat.pow 10 k.natAbs else 1
  let unit := if k < 0 then 1 else Nat.pow 10 k.natAbs
  let num := iv.value * up
  let den := iv.den * unit
  let floor := num / den
  let inside (n : Nat) : Bool := iv.holds (n * unit) up
  let best := roundHalfEven num den
  let other := if best = floor then floor + 1 else floor
  if inside best then some best else if inside other then some other else none

/-- One digit may round up to the next power of ten. -/
def Digits.normal (d : Digits) : Digits := if d.n = 10 then ⟨1, d.exponent + 1⟩ else d

/-- Tries the grids of `precision`, `precision + 1`, … digits. -/
def Interval.search (iv : Interval) (leading : Int) : Nat → Nat → Digits
  | precision, 0 => ⟨(iv.onGrid (leading - precision + 1)).getD 0, leading - precision + 1⟩
  | precision, more + 1 =>
    let k := leading - precision + 1
    match iv.onGrid k with
    | some n => ⟨n, k⟩
    | none => iv.search leading (precision + 1) more

/-- The shortest digits of a finite double other than zero; seventeen always suffice. -/
def shortest (significand : Nat) (exponent : Int) : Digits :=
  let iv := Interval.of significand exponent
  (iv.search (leadingExponent iv.value iv.den) 1 16).normal

end GpuTelemetry.Decimal
