import GpuTelemetry.CommandLine.Options
import GpuTelemetry.CommandLine.Report
import GpuTelemetry.Monitor.Background
/-!
The tool: it reads its options, queries the devices through a monitor and prints a report. It exits
with 1 when it could not start, with 2 when a device did not answer, and with 0 otherwise.
-/

namespace GpuTelemetry.CommandLine

inductive Choice where
  | help | json | device | async | ttl | maxEntries | stats | os | verbose
deriving DecidableEq, Repr

def options : Options Choice :=
  .ofList
    [(.help, { name := utf8 "--help", arity := 0, description := utf8 "Show this help message" }),
     (.json, { name := utf8 "--json", arity := 0, description := utf8 "Output in JSON format" }),
     (.device,
       { name := utf8 "--device", arity := 1,
         description := utf8 "GPU device index (default: all)" }),
     (.async,
       { name := utf8 "--async", arity := 0,
         description := utf8 "Query devices concurrently on the worker pool" }),
     (.ttl, { name := utf8 "--ttl", arity := 1, description := utf8 "Cache TTL in milliseconds" }),
     (.maxEntries,
       { name := utf8 "--max-entries", arity := 1,
         description := utf8 "Cache entry bound (0 disables caching)" }),
     (.stats,
       { name := utf8 "--stats", arity := 0,
         description := utf8 "Show aggregate and cache statistics" }),
     (.os,
       { name := utf8 "--os", arity := 0, description := utf8 "Show operating system identity" }),
     (.verbose,
       { name := utf8 "--verbose", arity := 0, description := utf8 "Debug logging on stderr" })]

def description : Text :=
  utf8 "Display detected GPUs with live telemetry: temperature, utilization, clocks, power, memory."

/-- Why the tool does not start. -/
inductive ToolError where
  | badOptions (e : OptionError)
  | badTtl
  | longTtl
  | badMaxEntries
  | badDevice
  | noDevice (index : UInt64) (detected : Nat)
deriving DecidableEq, Repr

def ToolError.message : ToolError → Text
  | .badOptions e => e.message ++ utf8 "\n"
  | .badTtl => utf8 "--ttl expects a non-negative integer"
  | .longTtl => utf8 "--ttl must not exceed " ++ Text.ofInt maxSpan.toInt ++ utf8 " ms"
  | .badMaxEntries => utf8 "--max-entries expects a non-negative integer"
  | .badDevice => utf8 "--device expects a device index"
  | .noDevice index detected =>
    utf8 "GPU " ++ Quantity.word64 index ++ utf8 " not found (" ++ Text.ofNat detected
      ++ utf8 " detected)"

structure Output where
  exitCode : Nat
  stdout : Text := []
  stderr : Text := []
deriving DecidableEq, Repr

/-- Only an error in the options themselves is followed by the help text. -/
def ToolError.output (program : Text) (e : ToolError) : Output :=
  { exitCode := 1
    stderr := utf8 "Error: " ++ e.message ++ utf8 "\n"
    stdout := match e with
      | .badOptions _ => options.usage program description
      | _ => [] }

/-- Settings with those of the command line over them. -/
def applyOptions (g : Given Choice) (s : Settings) : Except ToolError Settings := do
  let s ←
    if g.has .ttl then
      match g.number? .ttl with
      | none => .error .badTtl
      | some n =>
        if n > maxSpan.toUInt64 then .error .longTtl
        else .ok { s with cache := { s.cache with ttl := n.toInt64 } }
    else .ok s
  if g.has .maxEntries then
    match g.number? .maxEntries with
    | none => .error .badMaxEntries
    | some n => .ok { s with cache := { s.cache with maxEntries := some n } }
  else .ok s

/-- The device that is asked for, if one is. -/
def target (g : Given Choice) : Except ToolError (Option UInt64) :=
  if g.has .device then
    match g.number? .device with
    | none => .error .badDevice
    | some n => .ok (some n)
  else .ok none

section Run

variable {β σ : Type} [BackendCalls β (Job (Shared β σ))] [Surroundings σ]

/-- How the tool runs: who moves among its workers, and how often at most. -/
structure Pace (β σ : Type) where
  pick : Crew.Dispatcher (Shared β σ) Answer := Crew.firstReady
  fuel : Nat := 1000000

/-- A part of the run. Nothing comes out where the tool would wait forever. -/
abbrev Session (β σ : Type) := StateT (Shared β σ) Option

def alone {α : Type} (job : Job (Shared β σ) α) : Session β σ α := fun w => job.run w

/-- The devices to query: the one asked for, or all. -/
def indices (target : Option UInt64) : Session β σ (List UInt64) :=
  match target with
  | some i => pure [i]
  | none => do
    let n ← alone Monitor.count
    pure ((List.range n).map (·.toUInt64))

def queryInOrder : List UInt64 → Session β σ (List Answer)
  | [] => pure []
  | i :: is => do
    let a ← alone (Monitor.cached i)
    let rest ← queryInOrder is
    pure (a :: rest)

/-- Queries the devices one after another, or as jobs of a crew. -/
def queryDevices (pace : Pace β σ) (o : BackgroundOptions) (async : Bool) (target : Option UInt64) :
    Session β σ (List Queried) := do
  let is ← indices target
  let answers ←
    if async then
      StateT.mk (Monitor.inBackground pace.pick pace.fuel o (is.map fun i => Monitor.cached i))
    else queryInOrder is
  pure (is.zipWith Queried.mk answers)

/-- The report on the queried devices. -/
def gather (g : Given Choice) (identify : σ → Os.Identity × σ) (devices : List Queried) :
    Session β σ Report := do
  let report : Report := { devices }
  let report ←
    if g.has .stats then do
      let rs ← alone Monitor.devices
      let cache ← alone Monitor.cacheStats
      pure { report with statistics := some (.ofDevices rs), cache := some cache }
    else pure report
  if g.has .os then do
    let os ← alone (Shared.onOutside identify)
    pure { report with os := some os }
  else pure report

def Report.exitCode (r : Report) : Nat := if r.devices.all (·.answer.isOk) then 0 else 2

/-- The run once options and settings are known. -/
def serve (pace : Pace β σ) (program : Text) (g : Given Choice) (settings : Settings)
    (target : Option UInt64) (identify : σ → Os.Identity × σ) : Session β σ Output := do
  let detected ← if target.isSome then alone Monitor.count else pure 0
  match target.filter (·.toNat ≥ detected) with
  | some i => pure ((ToolError.noDevice i detected).output program)
  | none =>
    let devices ← queryDevices pace settings.background (g.has .async) target
    let report ← gather g identify devices
    pure
      { exitCode := report.exitCode
        stdout := if g.has .json then report.json else report.page }

/-- The whole run on a registry: what is printed, and what became of the surroundings. -/
def run (pace : Pace β σ) (program : Text) (argv : List Text) (env : Settings.Environment)
    (registry : Registry β) (identify : σ → Os.Identity × σ) (outside : σ) : Option (Output × σ) :=
  let reported (ns : List Notice) (s : σ) : σ := ns.foldl (fun s n => Surroundings.report n s) s
  match options.parse argv with
  | (some e, _) => some ((ToolError.badOptions e).output program, outside)
  | (none, g) =>
    if g.has .help then
      some ({ exitCode := 0, stdout := options.usage program description }, outside)
    else
      let outside := reported (Settings.notices env) outside
      match (do let s ← applyOptions g (.ofEnvironment env); pure (s, ← target g)) with
      | .error e => some (e.output program, outside)
      | .ok (settings, target) =>
        let outside := reported settings.cache.notices outside
        (serve pace program g settings target identify
            { monitor := .new registry settings.cache, outside }).map
          fun (out, w) => (out, w.outside)

end Run

end GpuTelemetry.CommandLine
