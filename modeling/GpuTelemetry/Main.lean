import GpuTelemetry.CommandLine.Tool
import GpuTelemetry.Source
/-!
The program. It takes a picture of the machine, lets the tool run on it and prints what comes out.
Commands are not started from here, so `nvidia-smi` counts as unavailable.
-/

namespace GpuTelemetry

/-- A machine as the program finds it. -/
structure Machine where
  sys : FileTree
  root : FileTree
  kernel : Option Os.Kernel
  clock : Instant
  journal : List Notice := []

instance : Surroundings Machine where
  now s := (s.clock, s)
  report n s := { s with journal := s.journal ++ [n] }

instance : BackendCalls Source (StateM Machine) where
  name b := pure b.name
  detect b listed := fun s => ((b.detect s.sys).onto listed, s)
  refresh b r := fun s => (b.refresh s.sys r, s)

def Machine.identify (s : Machine) : Os.Identity × Machine :=
  (Os.identify s.root s.kernel, { s with journal := s.journal ++ Os.kernelNotices s.kernel })

def cardFiles : List String :=
  ["gt_cur_freq_mhz", "gt_act_freq_mhz", "gt_max_freq_mhz", "gt_boost_freq_mhz"]

def deviceFiles : List String :=
  ["vendor", "device", "product_name", "label", "gpu_busy_percent", "mem_info_vram_used",
   "mem_info_vram_total", "pp_dpm_sclk", "pp_dpm_mclk"] ++ cardFiles

def sensorFiles : List String :=
  ["temp1_input", "power1_average", "power1_input", "power1_cap", "power1_max"]

/-- The content of a file, nothing if it cannot be read. -/
def contentOf (path : String) : IO (Option Text) := do
  try
    let bytes ← IO.FS.readBinFile path
    return some bytes.data.toList
  catch _ => return none

/-- The named files of a directory that can be read. -/
def filesIn (dir : String) (names : List String) : IO (List (Text × FileTree.Node)) := do
  let mut found := []
  for name in names do
    if let some content ← contentOf (dir ++ "/" ++ name) then
      found := found ++ [(utf8 name, .file content)]
  return found

/-- The names in a directory, none if there is no such directory. -/
def namesIn (dir : String) : IO (List String) := do
  try
    let path ← IO.FS.realPath dir
    return (← path.readDir).toList.map (·.fileName)
  catch _ => return []

def readSensors (dir : String) : IO FileTree.Node := do
  let mut found := []
  for name in ← namesIn dir do
    found := found ++ [(utf8 name, .directory (← filesIn (dir ++ "/" ++ name) sensorFiles))]
  return .directory found

def readDevice (dir : String) : IO FileTree.Node := do
  let sensors ← readSensors (dir ++ "/hwmon")
  return .directory ((← filesIn dir deviceFiles) ++ [(utf8 "hwmon", sensors)])

def readCard (dir : String) : IO FileTree.Node := do
  let files ← filesIn dir cardFiles
  if (← namesIn (dir ++ "/device")).isEmpty then return .directory files
  return .directory (files ++ [(utf8 "device", ← readDevice (dir ++ "/device"))])

def readSys : IO FileTree := do
  let mut cards : List (Text × FileTree.Node) := []
  for name in ← namesIn "/sys/class/drm" do
    cards := cards ++ [(utf8 name, ← readCard ("/sys/class/drm/" ++ name))]
  let mut modules : List (Text × FileTree.Node) := []
  for name in ["amdgpu", "i915", "xe"] do
    let files ← filesIn ("/sys/module/" ++ name) ["version"]
    modules := modules ++ [(utf8 name, .directory files)]
  let top := .directory
    [(utf8 "class", .directory [(utf8 "drm", .directory cards)]),
     (utf8 "module", .directory modules)]
  return { top, way := (utf8 "/sys/").length }

def readRoot : IO FileTree := do
  let etc ← filesIn "/etc" ["os-release"]
  let lib ← filesIn "/usr/lib" ["os-release"]
  let top := .directory
    [(utf8 "etc", .directory etc),
     (utf8 "usr", .directory [(utf8 "lib", .directory lib)])]
  return { top, way := (utf8 "/").length }

def readKernel : IO (Option Os.Kernel) := do
  match ← contentOf "/proc/sys/kernel/arch", ← contentOf "/proc/sys/kernel/osrelease" with
  | some machine, some release => return some (.ofFields (Text.trim machine) (Text.trim release))
  | _, _ => return none

def readEnvironment : IO Settings.Environment := do
  let mut known := []
  for name in ["GPUINFO_CACHE_TTL_MS", "GPUINFO_CACHE_MAX_ENTRIES", "GPUINFO_ASYNC_THREADS",
      "GPUINFO_ASYNC_TIMEOUT_MS"] do
    if let some value ← IO.getEnv name then
      known := known ++ [(utf8 name, utf8 value)]
  let pairs := known
  return fun name => pairs.lookup name

def write (h : IO.FS.Stream) (s : Text) : IO Unit := do
  h.write ⟨s.toArray⟩
  h.flush

end GpuTelemetry

open GpuTelemetry in
def main (argv : List String) : IO UInt32 := do
  let nanos ← IO.monoNanosNow
  let machine : Machine :=
    { sys := ← readSys, root := ← readRoot, kernel := ← readKernel, clock := nanos.toInt64 }
  let env ← readEnvironment
  let outcome := CommandLine.run {} (utf8 "gpu-info") (argv.map utf8) env
    (defaultRegistry Smi.unavailable) Machine.identify machine
  match outcome with
  | none => return 1
  | some (out, machine) =>
    let stderr ← IO.getStderr
    for n in machine.journal do
      write stderr (n.severity.name ++ utf8 ": " ++ n.message ++ utf8 "\n")
    write stderr out.stderr
    write (← IO.getStdout) out.stdout
    return out.exitCode.toUInt32
