import GpuTelemetry.Monitor.Operations
import GpuTelemetry.Proofs.Inventory

namespace GpuTelemetry.Monitor

inductive Call where
  | cached (index : UInt64)
  | cachedPrimary
  | refresh (index : UInt64)
  | refreshPrimary
  | refreshAll
  | setPrimary (index : UInt64)
  | detectAll
  | device (index : UInt64)
  | devices

inductive Reply where
  | snapshot (reading : Option Reading) (status : Status)
  | status (s : Status)
  | count (n : Nat)
  | device (r : Option Reading)
  | devices (rs : List Reading)

def Reply.ofAnswer (a : Answer) : Reply := .snapshot a.snapshot a.status

section Perform

variable {β : Type} {m : Type → Type} [Monad m] [MonadState (Monitor β) m] [BackendCalls β m] [Host m]

def Call.perform : Call → m Reply
  | .cached i => .ofAnswer <$> Monitor.cached i
  | .cachedPrimary => .ofAnswer <$> Monitor.cachedPrimary
  | .refresh i => .ofAnswer <$> Monitor.refresh i
  | .refreshPrimary => .ofAnswer <$> Monitor.refreshPrimary
  | .refreshAll => .status <$> Monitor.refreshAll
  | .setPrimary i => .status <$> Monitor.setPrimary i
  | .detectAll => .count <$> Monitor.detectAll
  | .device i => .device <$> Monitor.device? i
  | .devices => .devices <$> Monitor.devices

def performAll : List Call → m (List Reply)
  | [] => pure []
  | c :: cs => do
    let reply ← c.perform
    let replies ← performAll cs
    pure (reply :: replies)

end Perform

/-- The index that stands for the primary device is not asked for as a device. -/
def Call.Addressable : Call → Prop
  | .cached i | .refresh i | .setPrimary i | .device i => Cache.Key.device i ≠ .primary
  | _ => True

/-! ### Without a cache -/

section Plain

variable (found : List Reading) (f : Reading → Status × Reading)

def detected (inv : Inventory) : Inventory := if inv.initialized then inv else inv.replace found

def readAgain (i : UInt64) (inv : Inventory) : Reply × Inventory :=
  match inv.get? i with
  | none => (.snapshot none .notFound, inv)
  | some r =>
    if (f r).1.isOk then (.snapshot (some (f r).2) .ok, inv.set i (f r).2)
    else (.snapshot (some r) (f r).1, inv)

/-- All slots read again, as far as they still hold the device that was read. -/
def readAllAgain (first : Status) (i : Nat) : Nat → Inventory → Status × Inventory
  | 0, inv => (first, inv)
  | count + 1, inv =>
    match inv.get? i.toUInt64 with
    | none => (first, inv)
    | some r =>
      if (f r).1.isOk then
        readAllAgain first (i + 1) count (inv.updateSame i.toUInt64 (f r).2).2
      else readAllAgain (if first.isOk then (f r).1 else first) (i + 1) count inv

def Call.plain (inv : Inventory) : Call → Reply × Inventory
  | .cached i | .refresh i => readAgain f i (detected found inv)
  | .cachedPrimary =>
    let inv := detected found inv
    if inv.primarySlot?.isNone then (.snapshot (some .sentinel) .ok, inv)
    else readAgain f inv.primaryIndex inv
  | .refreshPrimary => readAgain f (detected found inv).primaryIndex (detected found inv)
  | .refreshAll =>
    let inv := detected found inv
    let (status, inv) := readAllAgain f .ok 0 inv.size inv
    (.status status, inv)
  | .setPrimary i =>
    let (status, inv) := (detected found inv).setPrimary i
    (.status status, inv)
  | .detectAll => (.count found.length, inv.replace found)
  | .device i => (.device ((detected found inv).get? i), detected found inv)
  | .devices => (.devices (detected found inv).devices, detected found inv)

def plainAll (inv : Inventory) : List Call → List Reply × Inventory
  | [] => ([], inv)
  | c :: cs =>
    let (reply, inv) := c.plain found f inv
    let (replies, inv) := plainAll inv cs
    (reply :: replies, inv)

end Plain

theorem detected_initialized (found : List Reading) (inv : Inventory) :
    (detected found inv).initialized = true := by
  cases hi : inv.initialized <;> simp [detected, hi, Inventory.replace]

theorem detected_of_initialized {found : List Reading} {inv : Inventory}
    (h : inv.initialized = true) : detected found inv = inv := by
  simp [detected, h]

section

variable {f : Reading → Status × Reading} {inv : Inventory} {i : UInt64} {r : Reading}

theorem readAgain_of_fixed (hr : inv.get? i = some r) (hf : f r = (.ok, r)) :
    readAgain f i inv = (.snapshot (some r) .ok, inv) := by
  simp [readAgain, hr, hf, Status.isOk, Inventory.set_of_get? hr]

theorem readAllAgain_frame (f : Reading → Status × Reading) (inv : Inventory) (first : Status)
    (n count : Nat) :
    (readAllAgain f first n count inv).2.initialized = inv.initialized ∧
      (readAllAgain f first n count inv).2.primaryIndex = inv.primaryIndex := by
  induction count generalizing first n inv with
  | zero => exact ⟨rfl, rfl⟩
  | succ count ih =>
    rw [readAllAgain]
    cases hr : inv.get? n.toUInt64 with
    | none => exact ⟨rfl, rfl⟩
    | some r =>
      dsimp only
      split
      · have hsame : (inv.updateSame n.toUInt64 (f r).2).2.initialized = inv.initialized ∧
            (inv.updateSame n.toUInt64 (f r).2).2.primaryIndex = inv.primaryIndex := by
          -- storing a reading writes into one slot
          rcases inv.updateSame_cases n.toUInt64 (f r).2 with ⟨_, _, _, h⟩ | h <;> rw [h] <;> exact ⟨rfl, rfl⟩
        have hrest := ih (inv.updateSame n.toUInt64 (f r).2).2 first (n + 1)
        exact ⟨hrest.1.trans hsame.1, hrest.2.trans hsame.2⟩
      · exact ih _ _ _

end

end GpuTelemetry.Monitor
