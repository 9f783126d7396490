import GpuTelemetry.Backend
/-!
The registered backends, in order of registration. Detection asks all of them and keeps what the
successful ones found; a refresh asks those of the device's family in turn until one succeeds, each on
the reading as it was.
-/

namespace GpuTelemetry

structure Registration (β : Type) where
  vendor : Vendor
  backend : β

structure Registry (β : Type) where
  entries : List (Registration β) := []

namespace Registry

variable {β : Type}

/-- Adds a backend; there has to be one. -/
def register (reg : Registry β) (vendor : Vendor) : Option β → Status × Registry β
  | none => (.invalidArgument, reg)
  | some b => (.ok, { entries := reg.entries ++ [⟨vendor, b⟩] })

def registerNotices (vendor : Vendor) (b : Option β) : List Notice :=
  if b.isNone then [.warning (utf8 "rejected null gpu backend for vendor " ++ vendor.displayName)]
  else []

/-- The registrations of a vendor's family. -/
def ofFamily (reg : Registry β) (v : Vendor) : List (Registration β) :=
  reg.entries.filter (·.vendor.sameFamily v)

def size (reg : Registry β) : Nat := reg.entries.length

def supports (reg : Registry β) (v : Vendor) : Bool := reg.entries.any (·.vendor.sameFamily v)

/-- Drops the vendors that equal an earlier one. -/
def distinct (seen : List Vendor) : List Vendor → List Vendor
  | [] => seen
  | v :: vs => distinct (if seen.any (·.same v) then seen else seen ++ [v]) vs

/-- The registered vendors, each once, in order of first registration. -/
def vendors (reg : Registry β) : List Vendor := distinct [] (reg.entries.map (·.vendor))

def quoted (s : Text) : Text := 39 :: s ++ [39]

def threwNotice (call : String) (backend : Text) : Outcome → List Notice
  | .returned _ => []
  | .threw message =>
    [.error (utf8 "gpu backend " ++ quoted backend ++ utf8 " threw during " ++ utf8 call
      ++ utf8 ": " ++ message)]

/-- The reports on a failed detection. -/
def detectNotices (backend : Text) (v : Vendor) (o : Outcome) : List Notice :=
  threwNotice "detect" backend o ++
    [.warning (utf8 "gpu backend " ++ quoted backend ++ utf8 " (" ++ v.displayName
      ++ utf8 ") detection failed: " ++ o.status.name)]

def shownName (r : Reading) : Text := quoted (r.name.getD (utf8 "?"))

/-- The reports on a failed refresh. -/
def refreshNotices (backend : Text) (r : Reading) (o : Outcome) : List Notice :=
  threwNotice "refresh" backend o ++
    [.warning (utf8 "gpu backend " ++ quoted backend ++ utf8 " failed to refresh " ++ shownName r
      ++ utf8 ": " ++ o.status.name)]

def exhaustedNotice (tried : Nat) (r : Reading) : Notice :=
  .error (utf8 "all " ++ Text.ofNat tried ++ utf8 " backend(s) for " ++ r.vendor.displayName
    ++ utf8 " failed to refresh " ++ shownName r)

variable {m : Type → Type} [Monad m] [BackendCalls β m] [Host m]

def namesOf : List (Registration β) → m (List Text)
  | [] => pure []
  | e :: es => do
    let name ← BackendCalls.name e.backend
    let more ← namesOf es
    pure (name :: more)

/-- The names of the backends for a vendor's family, in order. -/
def names (reg : Registry β) (v : Vendor) : m (List Text) := namesOf (reg.ofFamily v)

/-- What one backend puts into an empty list; nothing if it fails. -/
def detectEntry (e : Registration β) : m (List Reading) := do
  let d ← BackendCalls.detect e.backend []
  if d.outcome.status.isOk then pure d.found
  else do
    let name ← BackendCalls.name e.backend
    Host.reportAll (detectNotices name e.vendor d.outcome)
    pure []

def detectEntries : List (Registration β) → m (List Reading)
  | [] => pure []
  | e :: es => do
    let found ← detectEntry e
    let more ← detectEntries es
    pure (found ++ more)

/-- Asks every backend once, in order. -/
def detectAll (reg : Registry β) : m (List Reading) := detectEntries reg.entries

/-- The first success among `es`, each asked on `r` itself. -/
def refreshAmong (r : Reading) : List (Registration β) → m (Option Reading)
  | [] => pure none
  | e :: es => do
    let a ← BackendCalls.refresh e.backend r
    if a.outcome.status.isOk then pure (some a.reading)
    else do
      let name ← BackendCalls.name e.backend
      Host.reportAll (refreshNotices name r a.outcome)
      refreshAmong r es

/-- A new reading of the device, or the old one with the reason. -/
def refresh (reg : Registry β) (r : Reading) : m (Status × Reading) := do
  match reg.ofFamily r.vendor with
  | [] => pure (.noBackend, r)
  | es =>
    match ← refreshAmong r es with
    | some fresh => pure (.ok, fresh)
    | none =>
      Host.report (exhaustedNotice es.length r)
      pure (.detectionFailed, r)

end Registry

end GpuTelemetry
