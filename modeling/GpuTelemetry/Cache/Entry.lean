import GpuTelemetry.Reading.Basic
/-!
What a cache holds: keys, snapshots with their access history, and the order in which snapshots are
given up. Clock readings and ages are 64-bit words, nanoseconds and milliseconds.
-/

namespace GpuTelemetry

/-- A clock reading in nanoseconds. -/
abbrev Instant := Int64

/-- A span of time in milliseconds. -/
abbrev Millis := Int64

def nanosPerMilli : Int64 := 1000000

namespace Cache

/-- What a snapshot is kept under: a device index, or the primary device, which has the largest word. -/
structure Key where
  value : UInt64
deriving DecidableEq, Repr

def Key.device (index : UInt64) : Key := ⟨index⟩

def Key.primary : Key := ⟨UInt64.ofNat (UInt64.size - 1)⟩

def Key.isPrimary (k : Key) : Bool := k == primary

def Key.name (k : Key) : Text :=
  if k.isPrimary then utf8 "primary" else utf8 "gpu" ++ Text.ofNat k.value.toNat

/-- A snapshot, when it was stored and as how manieth, and how it has been used since. -/
structure Entry where
  snapshot : Reading
  createdAt : Instant
  sequence : UInt64
  lastAccessedAt : Instant
  accessCount : UInt64

namespace Entry

def new (snapshot : Reading) (now : Instant) (sequence : UInt64) : Entry :=
  { snapshot, createdAt := now, sequence, lastAccessedAt := now, accessCount := 0 }

/-- Younger than `ttl`. -/
def isFresh (e : Entry) (now : Instant) (ttl : Millis) : Bool := now - e.createdAt < ttl * nanosPerMilli

/-- Records a hit. -/
def touch (e : Entry) (now : Instant) : Entry :=
  { e with lastAccessedAt := now, accessCount := e.accessCount + 1 }

/-- Whole milliseconds since the entry was stored. -/
def age (e : Entry) (now : Instant) : Millis := (now - e.createdAt) / nanosPerMilli

/-- The order in which entries are given up: longest unused first, then least used, then stored
first. -/
def before (a b : Entry) : Bool :=
  if a.lastAccessedAt ≠ b.lastAccessedAt then a.lastAccessedAt < b.lastAccessedAt
  else if a.accessCount ≠ b.accessCount then a.accessCount < b.accessCount
  else a.sequence < b.sequence

end Entry

end Cache

end GpuTelemetry
