/-!
Text as bytes. Device attributes and command output promise no encoding, so names, lines and
messages are byte strings; this file holds the operations on them that know nothing of devices.
-/

namespace GpuTelemetry

/-- A byte string. -/
abbrev Text := List UInt8

/-- The bytes of a literal. -/
def utf8 (s : String) : Text := s.toUTF8.data.toList

namespace Text

/-- Space, tab, line feed, vertical tab, form feed and carriage return. -/
def isBlank (b : UInt8) : Bool := b == 32 || (9 ≤ b && b ≤ 13)

def dropBlank (s : Text) : Text := s.dropWhile isBlank

/-- `s` without the blanks at either end. -/
def trim (s : Text) : Text := (dropBlank (dropBlank s).reverse).reverse

/-- The maximal stretches of `s` without `d`, one more than there are `d`s. -/
def pieces (d : UInt8) : Text → List Text
  | [] => [[]]
  | b :: r =>
    if b = d then [] :: pieces d r
    else match pieces d r with
      | [] => [[b]]
      | p :: ps => (b :: p) :: ps

/-- The pieces of `s`, each without its surrounding blanks. -/
def fields (d : UInt8) (s : Text) : List Text := (pieces d s).map trim

/-- The lines of `s`; a last line may end in a line feed or not. -/
def lines (s : Text) : List Text :=
  let ps := pieces 10 s
  if ps.getLast? = some [] then ps.dropLast else ps

/-- What stands before the first line feed. -/
def firstLine (s : Text) : Text := s.takeWhile (· != 10)

/-- What stands before the first NUL, where number readers stop. -/
def beforeNul (s : Text) : Text := s.takeWhile (· != 0)

def startsWith (s p : Text) : Bool := p.isPrefixOf s

/-- ASCII letters in lower case, all else as it is. -/
def lowerByte (b : UInt8) : UInt8 := if 65 ≤ b && b ≤ 90 then b + 32 else b

def lower (s : Text) : Text := s.map lowerByte

/-- Whether `needle` stands somewhere in `s`. -/
def includes (needle : Text) : Text → Bool
  | [] => needle.isEmpty
  | b :: r => needle.isPrefixOf (b :: r) || includes needle r

/-- `includes` up to the case of ASCII letters. -/
def includesFolded (needle s : Text) : Bool := includes (lower needle) (lower s)

/-- Bytewise order, a proper beginning first. -/
def le : Text → Text → Bool
  | [], _ => true
  | _ :: _, [] => false
  | a :: r, b :: t => a < b || (a == b && le r t)

/-- `s` with spaces after it up to `width` bytes. -/
def padRight (width : Nat) (s : Text) : Text := s ++ List.replicate (width - s.length) 32

def sep (d : Text) (parts : List Text) : Text := d.intercalate parts

/-- The decimal numeral of `n`, without leading zeros. -/
def ofNat (n : Nat) : Text := (Nat.toDigits 10 n).map fun c => c.toNat.toUInt8

def ofInt (i : Int) : Text := if i < 0 then utf8 "-" ++ ofNat i.natAbs else ofNat i.natAbs

/-- The lower-case hexadecimal numeral of `n`, with leading zeros up to `width` digits. -/
def ofNatHex (width n : Nat) : Text :=
  let ds := (Nat.toDigits 16 n).map fun c => c.toNat.toUInt8
  List.replicate (width - ds.length) 48 ++ ds

def ofBool (b : Bool) : Text := if b then utf8 "true" else utf8 "false"

end Text

end GpuTelemetry
