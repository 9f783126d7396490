import GpuTelemetry.Monitor.Operations
import GpuTelemetry.Monitor.Statistics

namespace GpuTelemetry.Monitor

variable {β : Type} {m : Type → Type} [Monad m] [MonadState (Monitor β) m] [BackendCalls β m] [Host m]

def statistics : m Statistics := return .ofDevices (← devices)

/-- The devices of a vendor's family. -/
def ofFamily (v : Vendor) : m (List Reading) := return Reading.ofFamily v (← devices)

/-- The positions of the active devices. -/
def activeIndices : m (List Nat) := return Reading.activeIndices 0 (← devices)

/-- There are devices, and all are active. -/
def allActive : m Bool := return Reading.allActive (← devices)

end GpuTelemetry.Monitor
