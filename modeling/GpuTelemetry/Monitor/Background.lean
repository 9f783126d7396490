import GpuTelemetry.Job.Crew
import GpuTelemetry.Monitor.Operations
import GpuTelemetry.Monitor.Shared
import GpuTelemetry.Monitor.Ticket
import GpuTelemetry.Settings
/-!
Queries on a crew of workers. Each request is a job; the ticket of a query is asked with a bound on
the wait or without one.
-/

namespace GpuTelemetry.Monitor

section Queries

variable {β : Type} {m : Type → Type} [Monad m] [MonadState (Monitor β) m]
variable [BackendCalls β m] [Host m]

def cachedFrom (index : Nat) : Nat → m (List Answer)
  | 0 => pure []
  | count + 1 => do
    let a ← cached index.toUInt64
    let rest ← cachedFrom (index + 1) count
    pure (a :: rest)

/-- Every device's snapshot, in order. -/
def cachedAll : m (List Answer) := do
  let n ← count
  cachedFrom 0 n

/-- A new reading of a device the caller holds, as an answer. -/
def refreshed (r : Reading) : m Answer := do
  let (status, fresh) ← refreshReading r
  pure { snapshot := some fresh, status }

/-- What can be asked for in the background. -/
inductive Request where
  | primary
  | device (index : UInt64)
  | refresh (index : UInt64)
  | reading (r : Reading)
  | all
  | detection

/-- What a request comes to: the answer for one device, those for all, or the number detected. -/
inductive Response where
  | one (a : Answer)
  | each (as : List Answer)
  | detected (count : Nat)

def Request.respond : Request → m Response
  | .primary => .one <$> cachedPrimary
  | .device i => .one <$> cached i
  | .refresh i => .one <$> Monitor.refresh i
  | .reading r => .one <$> refreshed r
  | .all => .each <$> cachedAll
  | .detection => .detected <$> detectAll

end Queries

section Crew

variable {β σ : Type} [Surroundings σ]

/-- Reports from beside the crew. -/
def reportBeside (ns : List Notice) (w : Shared β σ) : Shared β σ :=
  { w with outside := ns.foldl (fun s n => Surroundings.report n s) w.outside }

/-- Asks a ticket for job `id` once nothing moves any more. An unbounded wait for a job that cannot
go on has no outcome. -/
def collect (pick : Crew.Dispatcher (Shared β σ) Answer) (fuel : Nat) (timeout : Option Millis)
    (id : Nat) (c : Crew (Shared β σ) Answer) : Option (Answer × Crew (Shared β σ) Answer) :=
  let c := c.settle pick fuel
  let t : Ticket := { timeout }
  let t := match c.result? id with
    | some a => t.complete a
    | none => t
  match t.get.1 with
  | .answered a => some (a, { c with shared := reportBeside t.getNotices c.shared })
  | _ => none

def collectAll (pick : Crew.Dispatcher (Shared β σ) Answer) (fuel : Nat) (timeout : Option Millis) :
    List Nat → Crew (Shared β σ) Answer → Option (List Answer × Crew (Shared β σ) Answer)
  | [], c => some ([], c)
  | id :: ids, c => do
    let (a, c) ← collect pick fuel timeout id c
    let (rest, c) ← collectAll pick fuel timeout ids c
    some (a :: rest, c)

/-- Runs jobs on a new crew and asks for their answers in order; the crew is dissolved before the
answers are handed on. -/
def inBackground (pick : Crew.Dispatcher (Shared β σ) Answer) (fuel : Nat) (o : BackgroundOptions)
    (jobs : List (Job (Shared β σ) Answer)) (w : Shared β σ) :
    Option (List Answer × Shared β σ) := do
  let c : Crew (Shared β σ) Answer := .new o.threads.toNat (reportBeside o.notices w)
  let c := jobs.foldl (fun c job => (c.submit job).2) c
  let (answers, c) ← collectAll pick fuel o.bounded.timeout (List.range jobs.length) c
  let c := c.dissolve pick fuel
  if c.dissolved then some (answers, c.shared) else none

end Crew

end GpuTelemetry.Monitor
