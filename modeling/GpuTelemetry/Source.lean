import GpuTelemetry.Registry
import GpuTelemetry.Smi.Command
import GpuTelemetry.Sysfs.Amd
import GpuTelemetry.Sysfs.Intel
/-!
The backends of a Linux machine: a command for NVIDIA, attributes for AMD and Intel. The NVML library
is not linked, so its backend finds nothing.
-/

namespace GpuTelemetry

inductive Source where
  /-- The command, and what running it comes to. -/
  | smi (run : Smi.Execution)
  | amd
  | intel
  | nvml
deriving DecidableEq, Repr

namespace Source

def name : Source → Text
  | .smi _ => Smi.backendName
  | .amd => Sysfs.Amd.backendName
  | .intel => Sysfs.Intel.backendName
  | .nvml => utf8 "nvml"

def vendor : Source → Vendor
  | .smi _ | .nvml => .nvidia
  | .amd => .amd
  | .intel => .intel

def detect (t : FileTree) : Source → Detection
  | .smi run => Smi.detect run
  | .amd => Sysfs.Amd.detect t
  | .intel => Sysfs.Intel.detect t
  | .nvml => .ofReadings []

def refresh (t : FileTree) (r : Reading) : Source → Attempt
  | .smi run => Smi.refresh run r
  | .amd => Sysfs.Amd.refresh t r
  | .intel => Sysfs.Intel.refresh t r
  | .nvml => .among (fun _ => false) [] r

end Source

/-- The backends in the order they are tried, each for its own vendor. -/
def defaultRegistry (smi : Smi.Execution) : Registry Source :=
  { entries := [Source.smi smi, .amd, .intel].map fun b => ⟨b.vendor, b⟩ }

end GpuTelemetry
