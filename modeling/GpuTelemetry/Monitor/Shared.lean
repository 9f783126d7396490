import GpuTelemetry.Job.Basic
import GpuTelemetry.Monitor.Basic
/-!
A monitor shared by several jobs, together with its surroundings. Access to the monitor, a clock
reading, a report and a backend call are each one step of a job; a detection waits until no other one
runs.
-/

namespace GpuTelemetry

/-- Clock and reports of a state that is not the monitor's. -/
class Surroundings (σ : Type) where
  now : σ → Instant × σ
  report : Notice → σ → σ

structure Shared (β σ : Type) where
  monitor : Monitor β
  outside : σ
  /-- A detection is under way. -/
  detecting : Bool := false

namespace Shared

variable {β σ α : Type}

/-- One step on the monitor. -/
def onMonitor (f : Monitor β → α × Monitor β) : Job (Shared β σ) α :=
  .atomic fun w => let (a, monitor) := f w.monitor; (a, { w with monitor })

/-- One step on the surroundings. -/
def onOutside (f : σ → α × σ) : Job (Shared β σ) α :=
  .atomic fun w => let (a, outside) := f w.outside; (a, { w with outside })

instance : MonadStateOf (Monitor β) (Job (Shared β σ)) where
  get := onMonitor fun s => (s, s)
  set s := onMonitor fun _ => ((), s)
  modifyGet := onMonitor

/-- Waits until no detection is under way and starts one. -/
def enterDetection : Job (Shared β σ) Unit :=
  .await (fun w => !w.detecting) fun w => { w with detecting := true }

def leaveDetection : Job (Shared β σ) Unit := .atomic fun w => ((), { w with detecting := false })

instance [Surroundings σ] : Host (Job (Shared β σ)) where
  now := onOutside Surroundings.now
  report n := onOutside fun s => ((), Surroundings.report n s)
  exclusively job := do
    enterDetection
    let a ← job
    leaveDetection
    pure a

/-- Backends that only act on the surroundings answer in one step. -/
instance [BackendCalls β (StateM σ)] : BackendCalls β (Job (Shared β σ)) where
  name b := onOutside (BackendCalls.name (m := StateM σ) b)
  detect b listed := onOutside (BackendCalls.detect (m := StateM σ) b listed)
  refresh b r := onOutside (BackendCalls.refresh (m := StateM σ) b r)

end Shared

end GpuTelemetry
