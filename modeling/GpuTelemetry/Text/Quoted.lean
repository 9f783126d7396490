import GpuTelemetry.Text.Basic
/-!
JSON text. Inside a string quotes, backslashes and control characters are escaped; bytes from 0x80 on
stand for themselves. An object is its members in a given order, without spaces.
-/

namespace GpuTelemetry.Text

/-- How one byte is written between quotes. -/
def escapeByte (b : UInt8) : Text :=
  if b = 34 then utf8 "\\\""
  else if b = 92 then utf8 "\\\\"
  else if b = 10 then utf8 "\\n"
  else if b = 13 then utf8 "\\r"
  else if b = 9 then utf8 "\\t"
  else if b < 32 then utf8 "\\u" ++ ofNatHex 4 b.toNat
  else [b]

def escape (s : Text) : Text := s.flatMap escapeByte

/-- A JSON string token. -/
def quote (s : Text) : Text := 34 :: escape s ++ [34]

def null : Text := utf8 "null"

/-- A JSON object from names and written values. -/
def object (members : List (Text × Text)) : Text :=
  123 :: sep [44] (members.map fun m => quote m.1 ++ 58 :: m.2) ++ [125]

end GpuTelemetry.Text
