import GpuTelemetry.Backend
import GpuTelemetry.Smi.Table
/-!
NVIDIA devices through the `nvidia-smi` command. Its output is read in chunks of a line or 511 bytes,
whichever is shorter, and a chunk counts up to its first NUL; a command that cannot be started or does
not exit with zero has no output.
-/

namespace GpuTelemetry.Smi

def backendName : Text := utf8 "nvidia-smi"

inductive Ending where
  | exited (code : UInt8)
  | signalled
  | notStarted
  /-- How it ended is not told. -/
  | unknown
deriving DecidableEq, Repr

/-- One run of the command. -/
structure Execution where
  printed : Text
  ending : Ending
deriving DecidableEq, Repr

def unavailable : Execution := ⟨[], .notStarted⟩

def chunkSize : Nat := 511

/-- The first `n` bytes, or the first line with its line feed if that is shorter, and the rest. -/
def takeChunk : Nat → Text → Text × Text
  | 0, s => ([], s)
  | _, [] => ([], [])
  | n + 1, b :: s =>
    if b = 10 then ([10], s)
    else
      let (chunk, rest) := takeChunk n s
      (b :: chunk, rest)

theorem takeChunk_length_le (n : Nat) (s : Text) : (takeChunk n s).2.length ≤ s.length := by
  fun_induction takeChunk n s <;> simp_all
  omega

theorem takeChunk_length_lt {n : Nat} {s : Text} (hn : n ≠ 0) (hs : s ≠ []) :
    (takeChunk n s).2.length < s.length := by
  cases n with
  | zero => exact absurd rfl hn
  | succ n =>
    cases s with
    | nil => exact absurd rfl hs
    | cons b s =>
      rw [takeChunk]
      split
      · simp
      · have := takeChunk_length_le n s
        simp only [List.length_cons]
        omega

def chunks (s : Text) : List Text :=
  if h : s = [] then []
  else
    have := takeChunk_length_lt (n := chunkSize) (by decide) h
    (takeChunk chunkSize s).1 :: chunks (takeChunk chunkSize s).2
termination_by s.length

/-- What is read of the output of a command. -/
def collected (printed : Text) : Text := (chunks printed).flatMap Text.beforeNul

def Execution.output? (e : Execution) : Option Text :=
  if e.ending = .exited 0 then some (collected e.printed) else none

def readings (e : Execution) : List Reading :=
  match e.output? with
  | some output => parseTable output
  | none => []

def detect (e : Execution) : Detection := .ofReadings (readings e)

/-- Reads the first device of the same identity again. -/
def refresh (e : Execution) (r : Reading) : Attempt := .among (·.same r) (readings e) r

end GpuTelemetry.Smi
