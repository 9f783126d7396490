import GpuTelemetry.Text.Numeral
import GpuTelemetry.Decimal.Binary64
/-!
Floating-point numerals read from text: decimal and hexadecimal ones, infinities and not-a-number,
letters in either case. A reader takes the longest numeral at the start and returns what is left.
-/

namespace GpuTelemetry.Decimal

open Text

/-- `m * 10 ^ e` rounded to a double. Exponents far out of range are settled before any power is
computed. -/
def ofDecimal (m : Nat) (e : Int) : Float :=
  let size : Int := (Nat.toDigits 10 m).length + e
  if m = 0 ∨ size < -400 then 0
  else if 400 < size then 1 / 0
  else Float.ofScientific m (e < 0) e.natAbs

/-- `m * 2 ^ e` rounded to a double, through the same reader: `2 ^ -k` is `5 ^ k` over `10 ^ k`. -/
def ofBinary (m : Nat) (e : Int) : Float :=
  let size : Int := Nat.log2 m + e
  if m = 0 ∨ size < -1200 then 0
  else if 1200 < size then 1 / 0
  else if e < 0 then Float.ofScientific (m * Nat.pow 5 e.natAbs) true e.natAbs
  else Float.ofScientific (m * Nat.pow 2 e.natAbs) false 0

/-- Digits with at most one point among them: the digits, how many follow the point, and the rest. -/
def readMantissa (base : Nat) (s : Text) : Option (Text × Nat × Text) :=
  let whole := s.takeWhile (isDigit base)
  match s.dropWhile (isDigit base) with
  | 46 :: r =>
    let part := r.takeWhile (isDigit base)
    if whole.isEmpty && part.isEmpty then none
    else some (whole ++ part, part.length, r.dropWhile (isDigit base))
  | r => if whole.isEmpty then none else some (whole, 0, r)

/-- An exponent after `mark`, zero if none stands there. -/
def readExponent (mark : UInt8) : Text → Int × Text
  | [] => (0, [])
  | b :: s =>
    if lowerByte b = mark then
      let (negative, r) := takeSign s
      let ds := r.takeWhile (isDigit 10)
      if ds.isEmpty then (0, b :: s)
      else
        let n : Int := digitsValue 10 ds
        (if negative then -n else n, r.dropWhile (isDigit 10))
    else (0, b :: s)

def readDecimal (s : Text) : Option (Double × Text) := do
  let (ds, places, r) ← readMantissa 10 s
  let (e, r) := readExponent 101 r
  some (.ofFloat (ofDecimal (digitsValue 10 ds) (e - places)), r)

/-- After `0x`; every digit behind the point is worth four bits. -/
def readHexadecimal (s : Text) : Option (Double × Text) := do
  let (ds, places, r) ← readMantissa 16 s
  let (e, r) := readExponent 112 r
  some (.ofFloat (ofBinary (digitsValue 16 ds) (e - 4 * places)), r)

/-- Drops `word`, given in lower case, from the start of `s`. -/
def dropWord (word s : Text) : Option Text :=
  if lower (s.take word.length) = word then some (s.drop word.length) else none

/-- A parenthesised run of letters, digits and underscores may follow `nan`. -/
def dropPayload (s : Text) : Text :=
  match s with
  | 40 :: r =>
    match r.dropWhile (fun b => isDigit 36 b || b == 95) with
    | 41 :: t => t
    | _ => s
  | _ => s

def readNan (s : Text) : Option (Double × Text) :=
  (dropWord (utf8 "nan") s).map fun r => (.ofFloat (0 / 0), dropPayload r)

def readInfinity (s : Text) : Option (Double × Text) :=
  ((dropWord (utf8 "infinity") s).or (dropWord (utf8 "inf") s)).map fun r => (.ofFloat (1 / 0), r)

def readMagnitude (s : Text) : Option (Double × Text) :=
  (dropWord (utf8 "0x") s >>= readHexadecimal).or
    ((readDecimal s).or ((readInfinity s).or (readNan s)))

/-- Blanks, an optional sign and a magnitude. -/
def readDouble (s : Text) : Option (Double × Text) :=
  let (negative, r) := takeSign (dropBlank s)
  (readMagnitude r).map fun (x, rest) => (if negative then x.neg else x, rest)

/-- A field that holds one numeral and nothing else; what follows a NUL does not count. -/
def parseField (field : Text) : Option Double :=
  match readDouble (beforeNul (trim field)) with
  | some (x, []) => some x
  | _ => none

end GpuTelemetry.Decimal
