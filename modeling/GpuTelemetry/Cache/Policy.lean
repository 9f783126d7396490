import GpuTelemetry.Cache.Entry
import GpuTelemetry.Notice

namespace GpuTelemetry.Cache

/-- The longest lifetime whose length in nanoseconds is still a signed 64-bit word. -/
def maxTtl : Millis := Int64.maxValue / nanosPerMilli

structure Policy where
  ttl : Millis := 500
  /-- The most entries held; none at all for zero, any number when absent. -/
  maxEntries : Option UInt64 := none
deriving DecidableEq, Repr, Inhabited

/-- The policy a cache keeps: the lifetime lies between zero and `maxTtl`. -/
def Policy.bounded (p : Policy) : Policy :=
  if p.ttl > maxTtl then { p with ttl := maxTtl }
  else if p.ttl < 0 then { p with ttl := 0 }
  else p

/-- What is reported when the lifetime had to be changed. -/
def Policy.notices (p : Policy) : List Notice :=
  if p.ttl > maxTtl then
    [.warning (utf8 "cache ttl " ++ Text.ofInt p.ttl.toInt ++ utf8 "ms too large, clamped to "
      ++ Text.ofInt maxTtl.toInt ++ utf8 "ms")]
  else if p.ttl < 0 then
    [.warning (utf8 "negative cache ttl " ++ Text.ofInt p.ttl.toInt ++ utf8 "ms treated as 0")]
  else []

end GpuTelemetry.Cache
