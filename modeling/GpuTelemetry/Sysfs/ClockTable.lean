import GpuTelemetry.Text.Numeral
/-!
Tables of clock levels, one level a line: a colon, then the frequency. The level in use has an
asterisk on its line.
-/

namespace GpuTelemetry.Sysfs

def hasColon (line : Text) : Bool := line.contains 58

def isActiveLevel (line : Text) : Bool := line.contains 42

/-- What follows the first colon. -/
def afterColon (line : Text) : Text := (line.dropWhile (· != 58)).drop 1

/-- The number behind the colon, taken to 32 bits; a unit may follow it. -/
def levelMHz? (line : Text) : Option UInt32 :=
  if hasColon line then
    (Text.readNumeral 10 (Text.beforeNul (Text.trim (afterColon line)))).map (·.word.toUInt32)
  else none

/-- The frequency of the first level in use. -/
def activeMHz (table : Text) : Option UInt32 :=
  (Text.lines table).findSome? fun line => if isActiveLevel line then levelMHz? line else none

/-- The larger of a frequency and the largest so far. -/
def larger (best : Option UInt32) (f : UInt32) : Option UInt32 :=
  match best with
  | none => some f
  | some b => if f > b then some f else some b

/-- The largest frequency of all levels. -/
def maxMHz (table : Text) : Option UInt32 := ((Text.lines table).filterMap levelMHz?).foldl larger none

end GpuTelemetry.Sysfs
