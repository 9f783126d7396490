import GpuTelemetry.Job.Basic
import GpuTelemetry.Text.Basic
/-!
A crew of workers that take jobs from one queue, first come first served. A crew that is being
dissolved accepts no more jobs; its workers leave once the queue is empty, so every accepted job is
done before the last one leaves.
-/

namespace GpuTelemetry

inductive Worker (σ α : Type) : Type where
  | idle
  | busy (id : Nat) (job : Job σ α)
  | left

structure Crew (σ α : Type) where
  shared : σ
  workers : List (Worker σ α)
  queue : List (Nat × Job σ α) := []
  /-- What the jobs came to, under the numbers they were accepted with. -/
  results : List (Nat × α) := []
  /-- The number of the next job. -/
  next : Nat := 0
  stopping : Bool := false

namespace Crew

variable {σ α β : Type}

/-- At least one worker. -/
def new (threads : Nat) (shared : σ) : Crew σ α :=
  { shared, workers := List.replicate (max 1 threads) .idle }

def threads (c : Crew σ α) : Nat := c.workers.length

/-- Jobs accepted and not yet taken. -/
def waiting (c : Crew σ α) : Nat := c.queue.length

/-- A crew that is being dissolved refuses jobs. -/
inductive SubmitError where
  | stopped
deriving DecidableEq, Repr

def SubmitError.message : SubmitError → Text
  | .stopped => utf8 "submit on stopped WorkerPool"

/-- Accepts a job and gives it a number. -/
def submit (c : Crew σ α) (job : Job σ α) : Except SubmitError Nat × Crew σ α :=
  if c.stopping then (.error .stopped, c)
  else (.ok c.next, { c with queue := c.queue ++ [(c.next, job)], next := c.next + 1 })

def stop (c : Crew σ α) : Crew σ α := { c with stopping := true }

def result? (c : Crew σ α) (id : Nat) : Option α := (c.results.find? (·.1 == id)).map (·.2)

/-- Whether a worker can move: take a job, do a step, hand in a result or leave. -/
def canMove (c : Crew σ α) : Worker σ α → Bool
  | .idle => !c.queue.isEmpty || c.stopping
  | .busy _ (.done _) => true
  | .busy _ (.step ready _ _) => ready c.shared
  | .left => false

/-- One move of the worker at `i`; nothing happens if it cannot move. -/
def move (i : Nat) (c : Crew σ α) : Crew σ α :=
  match c.workers[i]? with
  | some .idle =>
    match c.queue with
    | (id, job) :: queue => { c with queue, workers := c.workers.set i (.busy id job) }
    -- nobody leaves while a job waits
    | [] => if c.stopping then { c with workers := c.workers.set i .left } else c
  | some (.busy id (.done a)) =>
    { c with workers := c.workers.set i .idle, results := (id, a) :: c.results }
  | some (.busy id (.step ready update next)) =>
    if ready c.shared then
      { c with workers := c.workers.set i (.busy id (next c.shared)), shared := update c.shared }
    else c
  | _ => c

/-- Moves workers in the order of a schedule. -/
def moves (schedule : List Nat) (c : Crew σ α) : Crew σ α := schedule.foldl (fun c i => c.move i) c

/-- Who moves next, if anybody. -/
abbrev Dispatcher (σ α : Type) := Crew σ α → Option Nat

/-- Always the first worker that can move. -/
def firstReady : Dispatcher σ α := fun c => c.workers.findIdx? c.canMove

/-- Lets a dispatcher move workers until it names nobody, `fuel` moves at most. -/
def settle (pick : Dispatcher σ α) : Nat → Crew σ α → Crew σ α
  | 0, c => c
  | fuel + 1, c =>
    match pick c with
    | none => c
    | some i => settle pick fuel (c.move i)

/-- All workers have left. -/
def dissolved (c : Crew σ α) : Bool :=
  c.workers.all fun
    | .left => true
    | _ => false

/-- Dissolves the crew: no more jobs, and those accepted are done. -/
def dissolve (pick : Dispatcher σ α) (fuel : Nat) (c : Crew σ α) : Crew σ α := settle pick fuel c.stop

/-- Runs a job beside the crew. Where it has to wait the crew goes on. -/
def foreground (pick : Dispatcher σ α) : Nat → Job σ β → Crew σ α → Option (β × Crew σ α)
  | 0, _, _ => none
  | fuel + 1, job, c =>
    match job.runToWait c.shared with
    | (.done b, shared) => some (b, { c with shared })
    | (job, shared) =>
      match pick { c with shared } with
      | none => none
      | some i => foreground pick fuel job (move i { c with shared })

end Crew

end GpuTelemetry
