import GpuTelemetry.Cache.Basic
import GpuTelemetry.Inventory
import GpuTelemetry.Registry
/-!
The state of a monitor and its steps. A query of one device is two steps with a backend call between
them: it opens by looking in the cache and reading the stored slot, and it closes by publishing the
fresh reading, in the inventory and the cache together and only if the slot has not been replaced in
the meantime.
-/

namespace GpuTelemetry

structure Monitor (β : Type) where
  registry : Registry β
  inventory : Inventory := {}
  cache : Cache

/-- The outcome of a query of one device. -/
structure Answer where
  snapshot : Option Reading
  status : Status := .ok
  fromCache : Bool := false

namespace Answer

def isOk (a : Answer) : Bool := a.status.isOk

def cached (r : Reading) : Answer := { snapshot := some r, fromCache := true }

def fresh (r : Reading) : Answer := { snapshot := some r }

def notFound : Answer := { snapshot := none, status := .notFound }

end Answer

/-- A query whose backend call is under way: the slot it read and the key it was asked under. -/
structure Pending where
  key : Cache.Key
  slot : Slot

/-- A query after its first step. -/
inductive Opening where
  | answered (a : Answer)
  | pending (p : Pending)

/-- Nothing stored means that there is no such device. -/
def Opening.ofSlot (key : Cache.Key) : Option Slot → Opening
  | none => .answered .notFound
  | some s => .pending ⟨key, s⟩

namespace Monitor

variable {β : Type}

def new (registry : Registry β) (policy : Cache.Policy) : Monitor β :=
  { registry, cache := Cache.new policy }

def invalidate (s : Monitor β) (k : Cache.Key) : Monitor β := { s with cache := s.cache.invalidate k }

/-- Opens a cached query of one device. -/
def openCached (index : UInt64) (now : Instant) (s : Monitor β) : Opening × Monitor β :=
  match s.cache.get now (.device index) with
  | (some r, cache) => (.answered (.cached r), { s with cache })
  | (none, cache) => (.ofSlot (.device index) (s.inventory.slot? index), { s with cache })

/-- Opens a cached query of the primary device. Without devices the sentinel answers. -/
def openPrimary (now : Instant) (s : Monitor β) : Opening × Monitor β :=
  match s.cache.get now .primary with
  | (some r, cache) => (.answered (.cached r), { s with cache })
  | (none, cache) =>
    match s.inventory.primarySlot? with
    | none => (.answered (.fresh .sentinel), { s with cache })
    | some slot => (.pending ⟨.primary, slot⟩, { s with cache })

/-- Opens an explicit refresh: what the cache holds of the device is dropped first. -/
def openRefresh (index : UInt64) (s : Monitor β) : Opening × Monitor β :=
  let s := s.invalidate (.device index)
  -- the primary device may be cached under both keys
  let s := if index = s.inventory.primaryIndex then s.invalidate .primary else s
  (.ofSlot (.device index) (s.inventory.slot? index), s)

/-- Opens an explicit refresh of the primary device, which is cached under its index. -/
def openRefreshPrimary (s : Monitor β) : Opening × Monitor β :=
  match s.inventory.primarySlot? with
  | none => (.answered .notFound, s)
  | some slot =>
    (.pending ⟨.device slot.index, slot⟩, (s.invalidate (.device slot.index)).invalidate .primary)

/-- Publishes a fresh reading. A slot that was replaced meanwhile is left alone, and so is the cache;
the reading is still the answer. -/
def publish (p : Pending) (fresh : Reading) (now : Instant) (s : Monitor β) : Answer × Monitor β :=
  match s.inventory.updateSlot p.slot fresh with
  | (true, inventory) =>
    let (stored, cache) := s.cache.store now p.key fresh
    (.fresh stored, { s with inventory, cache })
  | (false, _) => (.fresh fresh, s)

/-- The answer after a failed refresh: the last known reading and the reason. -/
def Pending.failed (p : Pending) (status : Status) : Answer :=
  { snapshot := some p.slot.reading, status }

/-- The first detection is stored as it is. -/
def install (found : List Reading) (s : Monitor β) : Monitor β :=
  { s with inventory := s.inventory.replace found }

/-- A later detection replaces the collection and empties the cache. -/
def reinstall (found : List Reading) (s : Monitor β) : Monitor β :=
  { s with inventory := s.inventory.replace found, cache := s.cache.clear }

/-- Stores a refreshed reading in a slot that still holds the device. -/
def storeSame (index : UInt64) (fresh : Reading) (s : Monitor β) : Monitor β :=
  { s with inventory := (s.inventory.updateSame index fresh).2 }

def clearCache (s : Monitor β) : Monitor β := { s with cache := s.cache.clear }

/-- Marks another primary device; what was cached for the former one is dropped. -/
def selectPrimary (index : UInt64) (s : Monitor β) : Status × Monitor β :=
  match s.inventory.setPrimary index with
  | (.ok, inventory) => (.ok, { s with inventory, cache := s.cache.invalidate .primary })
  | (status, _) => (status, s)

end Monitor

end GpuTelemetry
