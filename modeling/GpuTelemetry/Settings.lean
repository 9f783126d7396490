import GpuTelemetry.Cache.Policy
import GpuTelemetry.Quantity
import GpuTelemetry.Text.Numeral
/-!
Settings and where they come from. Environment variables override the defaults; a variable that does
not hold an admissible number is reported and ignored.
-/

namespace GpuTelemetry

/-- How background queries run. -/
structure BackgroundOptions where
  threads : UInt64 := 2
  timeout : Option Millis := none
deriving DecidableEq, Repr, Inhabited

structure Settings where
  cache : Cache.Policy := {}
  background : BackgroundOptions := {}
deriving DecidableEq, Repr, Inhabited

/-- The longest lifetime or timeout that can be set: a year. -/
def maxSpan : Millis := 365 * 24 * 60 * 60 * 1000

/-- A timeout cut to `maxSpan`. -/
def BackgroundOptions.bounded (o : BackgroundOptions) : BackgroundOptions :=
  { o with timeout := o.timeout.map fun t => if t > maxSpan then maxSpan else t }

def BackgroundOptions.notices (o : BackgroundOptions) : List Notice :=
  match o.timeout with
  | some t =>
    if t > maxSpan then
      [.warning (utf8 "async timeout " ++ Text.ofInt t.toInt ++ utf8 "ms too large, clamped to "
        ++ Text.ofInt maxSpan.toInt ++ utf8 "ms")]
    else []
  | none => []

namespace Settings

/-- The variables of a process by name. -/
abbrev Environment := Text → Option Text

def ttlVariable : Text := utf8 "GPUINFO_CACHE_TTL_MS"
def maxEntriesVariable : Text := utf8 "GPUINFO_CACHE_MAX_ENTRIES"
def threadsVariable : Text := utf8 "GPUINFO_ASYNC_THREADS"
def timeoutVariable : Text := utf8 "GPUINFO_ASYNC_TIMEOUT_MS"

/-- Why a variable is ignored. -/
inductive Rejection where
  | malformed (name value : Text)
  | tooLong (name : Text) (value : UInt64)
  | noThreads
deriving DecidableEq, Repr

def Rejection.message : Rejection → Text
  | .malformed name value =>
    utf8 "ignoring " ++ name ++ utf8 "='" ++ value ++ utf8 "': not an unsigned integer"
  | .tooLong name value =>
    utf8 "ignoring " ++ name ++ 61 :: Quantity.word64 value ++ utf8 ": exceeds "
      ++ Text.ofInt maxSpan.toInt ++ utf8 "ms"
  | .noThreads =>
    utf8 "ignoring " ++ threadsVariable ++ utf8 "=0: the worker pool needs at least one thread"

/-- The number a text holds, if it holds nothing else. A minus sign is refused at the very start
only; behind blanks it negates modulo 2^64. -/
def unsigned? (value : Text) : Option UInt64 :=
  if value.head? = some 45 then none
  else match Text.readNumeral 10 value with
    | some n => if n.rest.isEmpty && !n.overflows then some n.word else none
    | none => none

/-- The value of a variable: nothing when it is unset or empty. -/
def number (env : Environment) (name : Text) : Except Rejection (Option UInt64) :=
  match env name with
  | none => .ok none
  | some value =>
    if value.isEmpty then .ok none
    else match unsigned? value with
      | some n => .ok (some n)
      | none => .error (.malformed name value)

/-- A span of milliseconds, a year at most. -/
def span (env : Environment) (name : Text) : Except Rejection (Option Millis) := do
  match ← number env name with
  | none => .ok none
  | some n =>
    if n > maxSpan.toUInt64 then .error (.tooLong name n) else .ok (some n.toInt64)

/-- A number of threads, one at least. -/
def threads (env : Environment) : Except Rejection (Option UInt64) := do
  match ← number env threadsVariable with
  | some 0 => .error .noThreads
  | n => .ok n

/-- What a variable sets; nothing if it is refused. -/
def accepted {α : Type} : Except Rejection (Option α) → Option α
  | .ok a => a
  | .error _ => none

def rejection {α : Type} : Except Rejection (Option α) → List Rejection
  | .ok _ => []
  | .error e => [e]

def ofEnvironment (env : Environment) : Settings :=
  let defaults : Settings := {}
  { cache :=
      { ttl := (accepted (span env ttlVariable)).getD defaults.cache.ttl
        maxEntries := accepted (number env maxEntriesVariable) }
    background :=
      { threads := (accepted (threads env)).getD defaults.background.threads
        timeout := accepted (span env timeoutVariable) } }

/-- The variables that are refused, in the order they are looked at. -/
def rejections (env : Environment) : List Rejection :=
  rejection (span env ttlVariable) ++ rejection (number env maxEntriesVariable)
    ++ rejection (threads env) ++ rejection (span env timeoutVariable)

def notices (env : Environment) : List Notice := (rejections env).map fun r => .warning r.message

def summary (s : Settings) : Text :=
  utf8 "ttl=" ++ Text.ofInt s.cache.ttl.toInt
    ++ utf8 "ms maxEntries=" ++ (match s.cache.maxEntries with
      | some n => Quantity.word64 n
      | none => utf8 "unbounded")
    ++ utf8 " threads=" ++ Quantity.word64 s.background.threads
    ++ utf8 " timeout=" ++ (match s.background.timeout with
      | some t => Text.ofInt t.toInt ++ utf8 "ms"
      | none => utf8 "none")

end Settings

end GpuTelemetry
