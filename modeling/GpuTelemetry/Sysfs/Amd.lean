import GpuTelemetry.Backend
import GpuTelemetry.Sysfs.Card
import GpuTelemetry.Sysfs.ClockTable

namespace GpuTelemetry.Sysfs.Amd

def backendName : Text := utf8 "amd-sysfs"

/-- A card as it is now. -/
def read (t : FileTree) (card : Card) : Reading :=
  let path (name : String) := card.devicePath ++ [utf8 name]
  let power (name : String) := powerW t card.devicePath [utf8 name]
  let coreTable := t.readText (path "pp_dpm_sclk")
  let memoryTable := t.readText (path "pp_dpm_mclk")
  { vendor := .amd
    name := some ((t.readLine (path "product_name")).getD (fallbackName "AMD" card))
    driverVersion := moduleVersion t (utf8 "amdgpu")
    temperatureC := temperatureC t card.devicePath
    utilizationPercent := (readUnsigned t (path "gpu_busy_percent")).map (.ofFloat ·.toFloat)
    coreClockMHz := coreTable.bind activeMHz
    memoryClockMHz := memoryTable.bind activeMHz
    maxClockMHz := coreTable.bind maxMHz
    powerUsageW := (power "power1_average").or (power "power1_input")
    powerLimitW := power "power1_cap"
    memoryUsedBytes := readUnsigned t (path "mem_info_vram_used")
    memoryTotalBytes := readUnsigned t (path "mem_info_vram_total")
    active := some true }

def readings (t : FileTree) : List Reading := (cards t Vendor.pciAmd).map (read t)

def detect (t : FileTree) : Detection := .ofReadings (readings t)

/-- Reads the first card of the same identity again. -/
def refresh (t : FileTree) (r : Reading) : Attempt := .among (·.same r) (readings t) r

end GpuTelemetry.Sysfs.Amd
