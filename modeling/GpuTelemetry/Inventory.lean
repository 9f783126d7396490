import GpuTelemetry.Reading.Basic
import GpuTelemetry.Status
/-!
The devices of the last detection, in order, with the primary one marked. The generation counts
replacements and changes of the primary device, so a reader can tell whether the slot it read still
means what it meant.
-/

namespace GpuTelemetry

structure Inventory where
  devices : List Reading := []
  primaryIndex : UInt64 := 0
  /-- A detection result has been stored, even an empty one. -/
  initialized : Bool := false
  generation : UInt64 := 0
deriving Inhabited

/-- A reading together with the slot it stood in and the generation it was read at. -/
structure Slot where
  reading : Reading
  index : UInt64
  generation : UInt64

namespace Inventory

def size (inv : Inventory) : Nat := inv.devices.length

def isEmpty (inv : Inventory) : Bool := inv.devices.isEmpty

/-- A new detection result; the first device becomes the primary one. -/
def replace (inv : Inventory) (devices : List Reading) : Inventory :=
  { devices, primaryIndex := 0, initialized := true, generation := inv.generation + 1 }

def get? (inv : Inventory) (index : UInt64) : Option Reading := inv.devices[index.toNat]?

def slot? (inv : Inventory) (index : UInt64) : Option Slot :=
  (inv.get? index).map fun r => ⟨r, index, inv.generation⟩

def primarySlot? (inv : Inventory) : Option Slot := inv.slot? inv.primaryIndex

def set (inv : Inventory) (index : UInt64) (r : Reading) : Inventory :=
  { inv with devices := inv.devices.set index.toNat r }

/-- Stores a new reading of the device in a slot, if it is still that device. -/
def updateSame (inv : Inventory) (index : UInt64) (r : Reading) : Bool × Inventory :=
  match inv.get? index with
  | some old => if old.same r then (true, inv.set index r) else (false, inv)
  | none => (false, inv)

/-- Stores a new reading in the slot it was refreshed from, if the generation has not moved. -/
def updateSlot (inv : Inventory) (s : Slot) (r : Reading) : Bool × Inventory :=
  if s.generation = inv.generation ∧ s.index.toNat < inv.devices.length then (true, inv.set s.index r)
  else (false, inv)

def setPrimary (inv : Inventory) (index : UInt64) : Status × Inventory :=
  if index.toNat < inv.devices.length then
    (.ok, { inv with primaryIndex := index, generation := inv.generation + 1 })
  else (.notFound, inv)

end Inventory

end GpuTelemetry
