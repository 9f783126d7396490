import GpuTelemetry.Cache.Report
import GpuTelemetry.Monitor.Basic
import GpuTelemetry.Monitor.Statistics
import GpuTelemetry.Os.Identity
import GpuTelemetry.Reading.Summary

namespace GpuTelemetry.CommandLine

open Quantity

/-- A queried device. -/
structure Queried where
  index : UInt64
  answer : Answer

/-- All that can be printed; parts that were not asked for are absent. -/
structure Report where
  devices : List Queried
  statistics : Option Statistics := none
  cache : Option Cache.Stats := none
  os : Option Os.Identity := none

/-- A label and its value on a line. -/
def line (label value : Text) : Text := utf8 "  " ++ label ++ value ++ utf8 "\n"

def memoryShare (r : Reading) : Text :=
  match r.memoryUtilizationPercent with
  | some p => utf8 " (" ++ Decimal.plain.fixed 1 p ++ utf8 "% used)"
  | none => []

def readingLines (r : Reading) : Text :=
  line (utf8 "Name:        ") (r.name.getD notAvailable)
    ++ line (utf8 "Vendor:      ") r.vendor.displayName
    ++ line (utf8 "Driver:      ") (r.driverVersion.getD notAvailable)
    ++ line (utf8 "Temperature: ") (Reading.celsius r.temperatureC)
    ++ line (utf8 "Utilization: ") (Reading.percent 0 r.utilizationPercent)
    ++ line (utf8 "Core Clock:  ")
        (Reading.megahertz r.coreClockMHz ++ utf8 " (max " ++ Reading.megahertz r.maxClockMHz
          ++ utf8 ")")
    ++ line (utf8 "Mem Clock:   ") (Reading.megahertz r.memoryClockMHz)
    ++ line (utf8 "Power:       ")
        (Reading.watts 1 r.powerUsageW ++ utf8 " / " ++ Reading.watts 0 r.powerLimitW)
    ++ line (utf8 "Memory:      ")
        (bytesOrNa r.memoryUsedBytes ++ utf8 " / " ++ bytesOrNa r.memoryTotalBytes ++ memoryShare r)

/-- Where the values come from, if it is not a new reading; a failure is set off in yellow. -/
def sourceLine (a : Answer) : Text :=
  if !a.isOk then
    utf8 "  \x1b[33mStatus:      " ++ a.status.name ++ utf8 " (last known values)\x1b[0m\n"
  else if a.fromCache then line (utf8 "Source:      ") (utf8 "cache")
  else []

def deviceBlock (q : Queried) : Text :=
  utf8 "=== GPU " ++ word64 q.index ++ utf8 " ===\n"
    ++ match q.answer.snapshot with
      | none => line (utf8 "Status:      ") q.answer.status.name
      | some r => readingLines r ++ sourceLine q.answer

def Report.page (r : Report) : Text :=
  (match r.os with
    | some os => utf8 "OS: " ++ os.summary ++ utf8 "\n\n"
    | none => [])
    ++ (if r.devices.isEmpty then utf8 "No GPUs detected.\n" else [])
    ++ Text.sep (utf8 "\n") (r.devices.map deviceBlock)
    ++ (match r.statistics with
      | some s => utf8 "\nSummary: " ++ s.summary ++ utf8 "\n"
      | none => [])
    ++ (match r.cache with
      | some c => utf8 "Cache:   " ++ c.summary ++ utf8 "\n"
      | none => [])

/-- A JSON object on one line with spaces behind its marks. -/
def spacedObject (members : List (Text × Text)) : Text :=
  123 :: Text.sep (utf8 ", ") (members.map fun m => Text.quote m.1 ++ utf8 ": " ++ m.2) ++ [125]

def Queried.json (q : Queried) : Text :=
  spacedObject
    [(utf8 "index", word64 q.index),
     (utf8 "status", Text.quote q.answer.status.name),
     (utf8 "fromCache", Text.ofBool q.answer.fromCache),
     (utf8 "record", orNull Reading.json q.answer.snapshot)]

def statisticsJson (s : Statistics) : Text :=
  spacedObject
    [(utf8 "totalGpus", Text.ofNat s.total),
     (utf8 "nvidia", Text.ofNat s.nvidia),
     (utf8 "amd", Text.ofNat s.amd),
     (utf8 "intel", Text.ofNat s.intel),
     (utf8 "unknown", Text.ofNat s.unknown),
     (utf8 "active", Text.ofNat s.active),
     (utf8 "averageTemperatureC", orNull Decimal.plain.shortest s.averageTemperatureC),
     (utf8 "totalPowerW", orNull Decimal.plain.shortest s.powerConsumptionW)]

/-- The devices of the JSON object, one a line. -/
def devicesJson (qs : List Queried) : Text :=
  if qs.isEmpty then utf8 "[]"
  else utf8 "[" ++ Text.sep (utf8 ",") (qs.map fun q => utf8 "\n    " ++ q.json) ++ utf8 "\n  ]"

/-- The members of the JSON object that were asked for, in their order. -/
def Report.members (r : Report) : List (Text × Text) :=
  (r.os.toList.map fun os => (utf8 "os", os.json))
    ++ [(utf8 "devices", devicesJson r.devices)]
    ++ (r.statistics.toList.map fun s => (utf8 "statistics", statisticsJson s))
    ++ (r.cache.toList.map fun c => (utf8 "cache", c.json))

def Report.json (r : Report) : Text :=
  123 :: utf8 "\n"
    ++ Text.sep (utf8 ",\n") (r.members.map fun m => utf8 "  " ++ Text.quote m.1 ++ utf8 ": " ++ m.2)
    ++ utf8 "\n" ++ [125] ++ utf8 "\n"

end GpuTelemetry.CommandLine
