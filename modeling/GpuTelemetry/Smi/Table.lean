import GpuTelemetry.Decimal.Reader
import GpuTelemetry.Reading.Basic
/-!
The table that `nvidia-smi` prints: one device a line, eleven fields between commas. A field that is
no number, such as `[N/A]`, is an absent metric; a line without a name is no device.
-/

namespace GpuTelemetry.Smi

open Decimal (parseField nearestInt64)

/-- A text field; brackets mark what the device does not tell. -/
def text? (field : Text) : Option Text :=
  if field.isEmpty || field.head? == some 91 then none else some field

/-- A number that is not below zero, as the nearest 64-bit integer. -/
def whole? (field : Text) : Option UInt64 :=
  match parseField field with
  | some x => if x.value < 0 then none else some (nearestInt64 x.value).toUInt64
  | none => none

/-- A clock in MHz, taken to 32 bits. -/
def clock? (field : Text) : Option UInt32 := (whole? field).map (·.toUInt32)

def bytesPerMebibyte : UInt64 := 0x100000

/-- A memory size in MiB, as bytes modulo 2^64. -/
def memory? (field : Text) : Option UInt64 := (whole? field).map (· * bytesPerMebibyte)

/-- The device on a line. -/
def parseLine (line : Text) : Option Reading :=
  match Text.fields 44 line with
  | [name, driver, temperature, utilization, core, memory, max, power, limit, used, total] =>
    (text? name).map fun name =>
      { vendor := .nvidia
        name := some name
        driverVersion := text? driver
        temperatureC := parseField temperature
        utilizationPercent := parseField utilization
        coreClockMHz := clock? core
        memoryClockMHz := clock? memory
        maxClockMHz := clock? max
        powerUsageW := parseField power
        powerLimitW := parseField limit
        memoryUsedBytes := memory? used
        memoryTotalBytes := memory? total
        active := some true }
  | _ => none

/-- The devices of a table; lines that are none are passed over. -/
def parseTable (output : Text) : List Reading :=
  (Text.lines output).filterMap fun line =>
    if (Text.trim line).isEmpty then none else parseLine line

end GpuTelemetry.Smi
