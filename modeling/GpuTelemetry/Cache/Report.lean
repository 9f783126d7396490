import GpuTelemetry.Cache.Basic
import GpuTelemetry.Quantity

namespace GpuTelemetry.Cache.Stats

def summary (s : Stats) : Text :=
  utf8 "entries=" ++ Text.ofNat s.totalEntries
    ++ utf8 " accesses=" ++ Quantity.word64 s.totalAccesses
    ++ utf8 " oldest=" ++ match s.oldestEntryAge with
      | some age => Text.ofInt age.toInt ++ utf8 "ms"
      | none => Quantity.notAvailable

def json (s : Stats) : Text :=
  Text.object
    [(utf8 "totalEntries", Text.ofNat s.totalEntries),
     (utf8 "totalAccesses", Quantity.word64 s.totalAccesses),
     (utf8 "oldestEntryAgeMs", Quantity.orNull (fun age => Text.ofInt age.toInt) s.oldestEntryAge)]

end GpuTelemetry.Cache.Stats
