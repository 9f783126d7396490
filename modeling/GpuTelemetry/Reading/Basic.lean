import GpuTelemetry.Decimal.Binary64
import GpuTelemetry.Vendor
/-!
One device as it was last read: who it is, and what it measured. Metrics a device does not report are
absent. Two readings are of the same device when vendor and name agree.
-/

namespace GpuTelemetry

open Decimal (Double)

structure Reading where
  vendor : Vendor := {}
  name : Option Text := none
  driverVersion : Option Text := none
  temperatureC : Option Double := none
  utilizationPercent : Option Double := none
  coreClockMHz : Option UInt32 := none
  memoryClockMHz : Option UInt32 := none
  maxClockMHz : Option UInt32 := none
  powerUsageW : Option Double := none
  powerLimitW : Option Double := none
  memoryUsedBytes : Option UInt64 := none
  memoryTotalBytes : Option UInt64 := none
  /-- Powered and usable. -/
  active : Option Bool := none
deriving Inhabited

namespace Reading

/-- The reading that stands for "no device": nothing is known. -/
def sentinel : Reading := {}

/-- Identity: vendor and name. -/
def same (a b : Reading) : Bool := a.vendor.same b.vendor && a.name == b.name

/-- Agreement in every field; a metric that is not a number agrees with nothing. -/
def sameSnapshot (a b : Reading) : Bool :=
  a.vendor.same b.vendor && a.name == b.name && a.driverVersion == b.driverVersion
    && a.temperatureC == b.temperatureC && a.utilizationPercent == b.utilizationPercent
    && a.coreClockMHz == b.coreClockMHz && a.memoryClockMHz == b.memoryClockMHz
    && a.maxClockMHz == b.maxClockMHz && a.powerUsageW == b.powerUsageW
    && a.powerLimitW == b.powerLimitW && a.memoryUsedBytes == b.memoryUsedBytes
    && a.memoryTotalBytes == b.memoryTotalBytes && a.active == b.active

def isUnknown (r : Reading) : Bool := r.sameSnapshot sentinel

/-- Reported as powered and usable. -/
def isActive (r : Reading) : Bool := r.active.getD false

/-- A metric that is present lies below `low` or above `high`. -/
def outside (low high : Float) (x : Option Double) : Bool :=
  x.any fun v => v.value < low || v.value > high

def negative (x : Option Double) : Bool := x.any (·.value < 0)

/-- A vendor or a name is known, and no metric is out of its range. -/
def isValid (r : Reading) : Bool :=
  (r.vendor.isKnown || r.name.isSome)
    && !outside (-50) 150 r.temperatureC
    && !outside 0 100 r.utilizationPercent
    && !negative r.powerUsageW && !negative r.powerLimitW
    && match r.memoryUsedBytes, r.memoryTotalBytes with
       | some used, some total => used ≤ total
       | _, _ => true

/-- The share of the memory in use, where both counts are known and the total is not zero. -/
def memoryUtilizationPercent (r : Reading) : Option Double :=
  match r.memoryUsedBytes, r.memoryTotalBytes with
  | some used, some total => if total = 0 then none else some (.ofFloat (used.toFloat * 100 / total.toFloat))
  | _, _ => none

/-- A hash that agrees with `same`, from any hashes of texts and small numbers. -/
def identityHash (hashText : Text → UInt64) (hashNat : Nat → UInt64) (r : Reading) : UInt64 :=
  let seed := r.vendor.identityHash hashNat
  let nameHash : UInt64 := match r.name with
    | some n => hashText n
    | none => 0
  seed ^^^ (nameHash + (0x9e3779b97f4a7c15 : UInt64) + (seed <<< (6 : UInt64)) + (seed >>> (2 : UInt64)))

end Reading

/-- Readings held once per identity. A member is looked for only among those with its hash. -/
structure IdentitySet where
  hash : Reading → UInt64
  members : List (UInt64 × Reading) := []

namespace IdentitySet

def contains (s : IdentitySet) (r : Reading) : Bool :=
  s.members.any fun m => m.1 == s.hash r && m.2.same r

/-- Adds a reading unless one of its identity is there; says whether it did. -/
def insert (s : IdentitySet) (r : Reading) : Bool × IdentitySet :=
  if s.contains r then (false, s) else (true, { s with members := (s.hash r, r) :: s.members })

def insertAll (s : IdentitySet) : List Reading → List Bool × IdentitySet
  | [] => ([], s)
  | r :: rs =>
    let (new, s) := s.insert r
    let (news, s) := s.insertAll rs
    (new :: news, s)

def size (s : IdentitySet) : Nat := s.members.length

end IdentitySet

end GpuTelemetry
