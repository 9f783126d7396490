import GpuTelemetry.Backend
import GpuTelemetry.Sysfs.Card

namespace GpuTelemetry.Sysfs.Intel

def backendName : Text := utf8 "intel-sysfs"

/-- The kind a name tells; graphics in the processor if it tells none. -/
def kindOf (name : Text) : IntelKind :=
  match IntelKind.ofName name with
  | .unknown => .integrated
  | kind => kind

/-- A frequency from the card's node or else from the device's. -/
def frequency? (t : FileTree) (card : Card) (file : String) : Option UInt32 :=
  (readUnsigned32 t (card.cardPath ++ [utf8 file])).or
    (readUnsigned32 t (card.devicePath ++ [utf8 file]))

/-- A card as it is now. -/
def read (t : FileTree) (card : Card) : Reading :=
  let path (name : String) := card.devicePath ++ [utf8 name]
  let name := (t.readLine (path "label")).getD (fallbackName "Intel" card)
  { vendor := .intel (kindOf name)
    name := some name
    driverVersion := (moduleVersion t (utf8 "i915")).or (moduleVersion t (utf8 "xe"))
    temperatureC := temperatureC t card.devicePath
    coreClockMHz := (frequency? t card "gt_cur_freq_mhz").or (frequency? t card "gt_act_freq_mhz")
    maxClockMHz := (frequency? t card "gt_max_freq_mhz").or (frequency? t card "gt_boost_freq_mhz")
    powerLimitW := powerW t card.devicePath [utf8 "power1_max"]
    memoryUsedBytes := readUnsigned t (path "mem_info_vram_used")
    memoryTotalBytes := readUnsigned t (path "mem_info_vram_total")
    active := some true }

def readings (t : FileTree) : List Reading := (cards t Vendor.pciIntel).map (read t)

def detect (t : FileTree) : Detection := .ofReadings (readings t)

/-- Reads the first card of the same name again. -/
def refresh (t : FileTree) (r : Reading) : Attempt := .among (·.name == r.name) (readings t) r

end GpuTelemetry.Sysfs.Intel
