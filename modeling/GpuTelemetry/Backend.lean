import GpuTelemetry.Cache.Entry
import GpuTelemetry.Notice
import GpuTelemetry.Status
/-!
What the library asks of its surroundings. A backend finds devices and reads them again; its calls
run in a monad of their own, so they may depend on and change anything. The host tells the time,
takes reports and guards detection.
-/

namespace GpuTelemetry

/-- How a call into a backend came back. -/
inductive Outcome where
  | returned (status : Status)
  | threw (message : Text)
deriving DecidableEq, Repr

/-- A call that threw counts as a failed detection. -/
def Outcome.status : Outcome → Status
  | .returned s => s
  | .threw _ => .detectionFailed

/-- What a backend left in the list it was handed before it returned or threw. -/
structure Detection where
  found : List Reading
  outcome : Outcome

/-- A source adds what it found to the list it was handed. -/
def Detection.onto (listed : List Reading) (d : Detection) : Detection :=
  { d with found := listed ++ d.found }

/-- What a backend left in its copy of a reading before it returned or threw. -/
structure Attempt where
  reading : Reading
  outcome : Outcome

/-- A source that reports no device at all counts as unavailable. -/
def Detection.ofReadings (found : List Reading) : Detection :=
  { found, outcome := .returned (if found.isEmpty then .detectionFailed else .ok) }

/-- The first of `fresh` that fits replaces the reading; without one the reading is left alone. -/
def Attempt.among (fits : Reading → Bool) (fresh : List Reading) (r : Reading) : Attempt :=
  match fresh.find? fits with
  | some f => ⟨f, .returned .ok⟩
  | none => ⟨r, .returned .detectionFailed⟩

/-- The calls into device sources. A source says its name when it is asked. -/
class BackendCalls (β : Type) (m : Type → Type) where
  name : β → m Text
  /-- Adds the devices there are to a list. -/
  detect : β → List Reading → m Detection
  refresh : β → Reading → m Attempt

class Host (m : Type → Type) where
  /-- Reads the clock. -/
  now : m Instant
  report : Notice → m Unit
  /-- Runs a detection while no other one runs. -/
  exclusively : {α : Type} → m α → m α

/-- Reports in order. -/
def Host.reportAll {m : Type → Type} [Monad m] [Host m] : List Notice → m Unit
  | [] => pure ()
  | n :: ns => do
    Host.report n
    Host.reportAll ns

end GpuTelemetry
