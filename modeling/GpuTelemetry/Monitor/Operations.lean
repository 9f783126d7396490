import GpuTelemetry.Monitor.Basic
/-!
The operations of a monitor, in any monad that holds its state, calls its backends and has a host.
Every access to the state is one step of that monad, so the operations may be interleaved at the
steps. Detection runs before the first query, and one detection at a time.
-/

namespace GpuTelemetry.Monitor

variable {β : Type} {m : Type → Type} [Monad m] [MonadState (Monitor β) m]

def isInitialized : m Bool := return (← get).inventory.initialized

section Calls

variable [BackendCalls β m] [Host m]

def runDetection : m (List Reading) := do
  let s ← get
  s.registry.detectAll

/-- Detects unless that has been done; looks again once the detection lock is held. -/
def ensureDetected : m Unit := do
  if !(← isInitialized) then
    Host.exclusively do
      -- somebody else may have detected while this caller waited
      if !(← isInitialized) then
        let found ← runDetection
        modify (install found)

/-- Detects again; the number of devices found. -/
def detectAll : m Nat :=
  Host.exclusively do
    let found ← runDetection
    modifyGet fun s => let s := reinstall found s; (s.inventory.size, s)

/-- A new reading of a device the caller holds; nothing is stored. -/
def refreshReading (r : Reading) : m (Status × Reading) := do
  let s ← get
  s.registry.refresh r

def keptNotice (p : Pending) (status : Status) : Notice :=
  .warning (utf8 "refresh of gpu" ++ Text.ofNat p.slot.index.toNat ++ utf8 " failed (" ++ status.name
    ++ utf8 "), returning last known record")

/-- The second half of a query: the backend call, then publication. -/
def close : Opening → m Answer
  | .answered a => pure a
  | .pending p => do
    let (status, fresh) ← refreshReading p.slot.reading
    if status.isOk then
      -- the lifetime of a reading starts when it is published
      let now ← Host.now
      modifyGet (publish p fresh now)
    else
      Host.report (keptNotice p status)
      pure (Pending.failed p status)

/-- A device's snapshot, from the cache while that is fresh. -/
def cached (index : UInt64) : m Answer := do
  ensureDetected
  let now ← Host.now
  let o ← modifyGet (openCached index now)
  close o

/-- The primary device's snapshot, from the cache while that is fresh. -/
def cachedPrimary : m Answer := do
  ensureDetected
  let now ← Host.now
  let o ← modifyGet (openPrimary now)
  close o

/-- The primary device's snapshot; the sentinel if there is none. -/
def primarySnapshot : m Reading := do
  let a ← cachedPrimary
  pure (a.snapshot.getD .sentinel)

/-- A new reading of a device, past the cache. -/
def refresh (index : UInt64) : m Answer := do
  ensureDetected
  let o ← modifyGet (openRefresh index)
  close o

def refreshPrimary : m Answer := do
  ensureDetected
  let o ← modifyGet openRefreshPrimary
  close o

def refreshFailedNotice (index : Nat) (status : Status) : Notice :=
  .error (utf8 "failed to refresh gpu" ++ Text.ofNat index ++ utf8 ": " ++ status.name)

/-- Refreshes the slots from `index` on, `count` of them; the first failure, starting with `first`. -/
def refreshSlots (first : Status) (index : Nat) : Nat → m Status
  | 0 => pure first
  | count + 1 => do
    let s ← get
    match s.inventory.get? index.toUInt64 with
    -- a detection may have left fewer devices meanwhile
    | none => pure first
    | some r =>
      let (status, fresh) ← refreshReading r
      if status.isOk then
        modify (storeSame index.toUInt64 fresh)
        refreshSlots first (index + 1) count
      else
        Host.report (refreshFailedNotice index status)
        refreshSlots (if first.isOk then status else first) (index + 1) count

/-- Refreshes every device, also after a failure, and empties the cache. -/
def refreshAll : m Status := do
  ensureDetected
  let s ← get
  let first ← refreshSlots .ok 0 s.inventory.size
  modify clearCache
  pure first

def devices : m (List Reading) := do
  ensureDetected
  return (← get).inventory.devices

def count : m Nat := do
  ensureDetected
  return (← get).inventory.size

def device? (index : UInt64) : m (Option Reading) := do
  ensureDetected
  return (← get).inventory.get? index

def primaryIndex : m UInt64 := do
  ensureDetected
  return (← get).inventory.primaryIndex

def unselectableNotice (index : UInt64) (status : Status) : Notice :=
  .warning (utf8 "cannot select gpu" ++ Text.ofNat index.toNat ++ utf8 " as primary: " ++ status.name)

def setPrimary (index : UInt64) : m Status := do
  ensureDetected
  let status ← modifyGet (selectPrimary index)
  if !status.isOk then
    Host.report (unselectableNotice index status)
  pure status

/-- Totals over the cache, expired entries included. -/
def cacheStats : m Cache.Stats := do
  let now ← Host.now
  return (← get).cache.stats now

/-- Registers a backend, or reports that there is none. -/
def registerBackend (vendor : Vendor) (b : Option β) : m Status := do
  Host.reportAll (Registry.registerNotices vendor b)
  modifyGet fun s =>
    let (status, registry) := s.registry.register vendor b
    (status, { s with registry })

end Calls

end GpuTelemetry.Monitor
