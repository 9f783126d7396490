import GpuTelemetry.Decimal.Shortest
/-!
How doubles are written: in their shortest digits, or with a fixed number of places. Which exponents
are written positionally and how the others look is one `Layout` value.
-/

namespace GpuTelemetry.Decimal

/-- The decisions of a float format. -/
structure Layout where
  /-- First-digit exponents from here are written positionally, -/
  positionalFrom : Int
  /-- up to but not including this one. -/
  positionalTo : Int
  /-- What stands before the exponent. -/
  mark : Text
  /-- Exponents have at least this many digits. -/
  exponentWidth : Nat
  nan : Text
  infinite : Text

/-- Shortest digits go positionally from 10^-4 up to below 10^16; other exponents have a sign and at
least two digits. A whole number has no point. -/
def plain : Layout :=
  { positionalFrom := -4, positionalTo := 16, mark := utf8 "e", exponentWidth := 2,
    nan := utf8 "nan", infinite := utf8 "inf" }

def zeros (n : Nat) : Text := List.replicate n 48

def signed (negative : Bool) (s : Text) : Text := if negative then 45 :: s else s

/-- `s` with leading zeros up to `width` digits. -/
def padZeros (width : Nat) (s : Text) : Text := zeros (width - s.length) ++ s

/-- A point before the last `places` of the digits, none if there are no places. -/
def withPoint (places : Nat) (digits : Text) : Text :=
  if places = 0 then digits
  else
    let ds := padZeros (places + 1) digits
    ds.take (ds.length - places) ++ 46 :: ds.drop (ds.length - places)

/-- Digits laid out positionally or with an exponent. -/
def Layout.digits (f : Layout) (d : Digits) : Text :=
  let ds := Text.ofNat d.n
  let e : Int := d.exponent + ds.length - 1
  if f.positionalFrom ≤ e ∧ e < f.positionalTo then
    if 0 ≤ d.exponent then ds ++ zeros d.exponent.natAbs else withPoint d.exponent.natAbs ds
  else
    withPoint (ds.length - 1) ds ++ f.mark ++ utf8 (if e < 0 then "-" else "+")
      ++ padZeros f.exponentWidth (Text.ofNat e.natAbs)

/-- A double in its shortest digits. -/
def Layout.shortest (f : Layout) (x : Double) : Text :=
  match Binary64.ofFloat x.value with
  | .nan => signed x.negativeNan f.nan
  | .infinite negative => signed negative f.infinite
  | .finite negative 0 _ => signed negative (utf8 "0")
  | .finite negative m e => signed negative (f.digits (Decimal.shortest m e))

/-- A double with `places` decimals, rounded from its exact value, a half going to the even digit. -/
def Layout.fixed (f : Layout) (places : Nat) (x : Double) : Text :=
  match Binary64.ofFloat x.value with
  | .nan => signed x.negativeNan f.nan
  | .infinite negative => signed negative f.infinite
  | .finite negative m e =>
    let (num, den) := ratio m e
    signed negative (withPoint places (Text.ofNat (roundHalfEven (num * Nat.pow 10 places) den)))

end GpuTelemetry.Decimal
