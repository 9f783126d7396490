import GpuTelemetry.Quantity
import GpuTelemetry.Reading.Basic

namespace GpuTelemetry.Reading

open Decimal (Double plain)
open Quantity

def celsius : Option Double → Text := orNa (plain.fixed 1) (utf8 "C")

def megahertz : Option UInt32 → Text := orNa word32 (utf8 "MHz")

def watts (places : Nat := 1) : Option Double → Text := orNa (plain.fixed places) (utf8 "W")

def percent (places : Nat := 1) : Option Double → Text := orNa (plain.fixed places) (utf8 "%")

/-- The one-line summary. -/
def summary (r : Reading) : Text :=
  utf8 "[" ++ r.vendor.displayName ++ utf8 "] " ++ r.name.getD notAvailable
    ++ utf8 " (driver " ++ r.driverVersion.getD notAvailable
    ++ utf8 ") - temp " ++ celsius r.temperatureC
    ++ utf8 ", util " ++ percent 1 r.utilizationPercent
    ++ utf8 ", core " ++ megahertz r.coreClockMHz
    ++ utf8 ", mem " ++ megahertz r.memoryClockMHz
    ++ utf8 ", power " ++ watts 1 r.powerUsageW ++ utf8 " / " ++ watts 1 r.powerLimitW
    ++ utf8 ", vram " ++ bytesOrNa r.memoryUsedBytes ++ utf8 " / " ++ bytesOrNa r.memoryTotalBytes
    ++ utf8 ", active " ++ yesNo r.active

/-- The JSON members, always fourteen and in this order. The kind is written for Intel only. -/
def members (r : Reading) : List (Text × Text) :=
  [(utf8 "vendor", Text.quote r.vendor.family.name),
   (utf8 "intelKind",
     if r.vendor.family = .intel then Text.quote r.vendor.kind.name else Text.null),
   (utf8 "name", orNull Text.quote r.name),
   (utf8 "driverVersion", orNull Text.quote r.driverVersion),
   (utf8 "temperatureC", orNull plain.shortest r.temperatureC),
   (utf8 "utilizationPercent", orNull plain.shortest r.utilizationPercent),
   (utf8 "coreClockMHz", orNull word32 r.coreClockMHz),
   (utf8 "memoryClockMHz", orNull word32 r.memoryClockMHz),
   (utf8 "maxClockMHz", orNull word32 r.maxClockMHz),
   (utf8 "powerUsageW", orNull plain.shortest r.powerUsageW),
   (utf8 "powerLimitW", orNull plain.shortest r.powerLimitW),
   (utf8 "memoryUsedBytes", orNull word64 r.memoryUsedBytes),
   (utf8 "memoryTotalBytes", orNull word64 r.memoryTotalBytes),
   (utf8 "active", orNull Text.ofBool r.active)]

def json (r : Reading) : Text := Text.object r.members

end GpuTelemetry.Reading
