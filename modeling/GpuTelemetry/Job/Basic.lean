/-!
Computations that share a state. A job runs in steps; each waits until its guard holds, changes the
state at once and goes on from what it saw. Between two steps other jobs may run, so a job says
exactly where it may be interleaved.
-/

namespace GpuTelemetry

inductive Job (σ α : Type) : Type where
  | done (a : α)
  /-- Waits for `ready`, then moves the state by `update` and goes on from the state it found. -/
  | step (ready : σ → Bool) (update : σ → σ) (next : σ → Job σ α)

namespace Job

variable {σ α β : Type}

def bind : Job σ α → (α → Job σ β) → Job σ β
  | .done a, f => f a
  | .step ready update next, f => .step ready update fun s => (next s).bind f

instance : Monad (Job σ) where
  pure := .done
  bind := bind

/-- One step that never waits. -/
def atomic (f : σ → α × σ) : Job σ α := .step (fun _ => true) (fun s => (f s).2) fun s => .done (f s).1

/-- One step that changes the state as soon as `ready` holds. -/
def await (ready : σ → Bool) (update : σ → σ := id) : Job σ Unit := .step ready update fun _ => .done ()

/-- The job after one step, unless it is over or has to wait. -/
def next? (s : σ) : Job σ α → Option (Job σ α × σ)
  | .done _ => none
  | .step ready update next => if ready s then some (next s, update s) else none

/-- Runs a job alone; nothing comes out if it has to wait. -/
def run : Job σ α → σ → Option (α × σ)
  | .done a, s => some (a, s)
  | .step ready update next, s => if ready s then (next s).run (update s) else none

/-- Runs a job until it is over or has to wait. -/
def runToWait : Job σ α → σ → Job σ α × σ
  | .done a, s => (.done a, s)
  | .step ready update next, s =>
    if ready s then (next s).runToWait (update s) else (.step ready update next, s)

end Job

end GpuTelemetry
