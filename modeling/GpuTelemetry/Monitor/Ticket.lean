import GpuTelemetry.Monitor.Basic
/-!
A ticket for a query that runs in the background. Its result can be taken out of the channel only
once, so the ticket keeps it; a bounded wait that ends too early answers with the sentinel and loses
nothing.
-/

namespace GpuTelemetry

/-- Where the result of a job is handed over. -/
inductive Channel (α : Type) where
  | running
  | ready (a : α)
  | taken

def Channel.complete {α : Type} (a : α) : Channel α → Channel α
  | .running => .ready a
  | c => c

structure Ticket where
  channel : Channel Answer := .running
  timeout : Option Millis := none
  kept : Option Answer := none

/-- What asking a ticket comes to. -/
inductive Fetch where
  | answered (a : Answer)
  /-- There is no bound on the wait, and the job is not over. -/
  | waiting
  /-- The channel was read a second time. -/
  | spent

namespace Answer

def timedOut : Answer := { snapshot := some .sentinel, status := .timeout }

end Answer

namespace Ticket

/-- The job hands in its result. -/
def complete (a : Answer) (t : Ticket) : Ticket := { t with channel := t.channel.complete a }

/-- Asks for the result when the wait for it is over. -/
def get (t : Ticket) : Fetch × Ticket :=
  match t.kept with
  | some a => (.answered a, t)
  | none =>
    match t.channel with
    | .ready a => (.answered a, { t with channel := .taken, kept := some a })
    | .running =>
      match t.timeout with
      | some _ => (.answered .timedOut, t)
      | none => (.waiting, t)
    | .taken => (.spent, t)

/-- The result is there without waiting. -/
def isReady (t : Ticket) : Bool :=
  t.kept.isSome || match t.channel with
    | .ready _ => true
    | _ => false

/-- A wait without bound: over once the result is there, and it takes nothing. -/
def waited (t : Ticket) : Bool := t.isReady

/-- What is reported when a bounded wait ends too early. -/
def getNotices (t : Ticket) : List Notice :=
  match t.kept, t.channel, t.timeout with
  | none, .running, some ms =>
    [.warning (utf8 "async gpu query exceeded " ++ Text.ofInt ms.toInt ++ utf8 "ms")]
  | _, _, _ => []

end Ticket

end GpuTelemetry
