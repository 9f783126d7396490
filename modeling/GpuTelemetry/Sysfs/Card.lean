import GpuTelemetry.Decimal.Binary64
import GpuTelemetry.Sysfs.Attribute

namespace GpuTelemetry.Sysfs

open Decimal (Double)

structure Card where
  name : Text
  cardPath : FileTree.Path
  devicePath : FileTree.Path
  pciVendor : UInt32
  pciDevice : Option UInt32
deriving DecidableEq, Repr

/-- The number after `card`. Connectors, which have a hyphen in their name, have none. -/
def cardNumber? (name : Text) : Option UInt64 :=
  if name.length ≤ 4 || name.contains 45 then none
  else (wholeNumeral 10 (name.drop 4)).map (·.word)

def drmPath : FileTree.Path := [utf8 "class", utf8 "drm"]

/-- The card of that name with its number, if its device is a directory of that vendor. -/
def card? (t : FileTree) (vendor : UInt32) (name : Text) : Option (UInt64 × Card) := do
  let number ← cardNumber? name
  let cardPath := drmPath ++ [name]
  let devicePath := cardPath ++ [utf8 "device"]
  guard (t.isDirectory devicePath)
  let pciVendor ← readHexadecimal t (devicePath ++ [utf8 "vendor"])
  guard (pciVendor = vendor)
  let pciDevice := readHexadecimal t (devicePath ++ [utf8 "device"])
  some (number, { name, cardPath, devicePath, pciVendor, pciDevice })

/-- The cards of a vendor in the order of their numbers. -/
def cards (t : FileTree) (vendor : UInt32) : List Card :=
  let found := (t.list drmPath (utf8 "card")).filterMap (card? t vendor)
  (found.mergeSort fun a b => a.1 ≤ b.1).map (·.2)

/-- The sensor directories of a device, in order. -/
def sensorPaths (t : FileTree) (device : FileTree.Path) : List FileTree.Path :=
  let base := device ++ [utf8 "hwmon"]
  (t.list base (utf8 "hwmon")).map fun name => base ++ [name]

/-- The first temperature that can be read; sensors give thousandths of a degree. -/
def temperatureC (t : FileTree) (device : FileTree.Path) : Option Double :=
  (sensorPaths t device).findSome? fun p =>
    (readSigned t (p ++ [utf8 "temp1_input"])).map fun milli =>
      .ofFloat (Decimal.floatOfInt milli.toInt / 1000)

/-- The first power that can be read at that path from a sensor; sensors give millionths of a watt. -/
def powerW (t : FileTree) (device file : FileTree.Path) : Option Double :=
  (sensorPaths t device).findSome? fun p =>
    (readUnsigned t (p ++ file)).map fun micro => .ofFloat (micro.toFloat / 1000000)

/-- The version of a kernel module. -/
def moduleVersion (t : FileTree) (name : Text) : Option Text :=
  t.readLine ([utf8 "module"] ++ FileTree.Path.ofText name ++ [utf8 "version"])

/-- The name of a card that does not tell one. -/
def fallbackName (maker : String) (card : Card) : Text :=
  utf8 maker ++ utf8 " GPU (Device ID: 0x" ++ Text.ofNatHex 4 (card.pciDevice.getD 0).toNat
    ++ utf8 ")"

end GpuTelemetry.Sysfs
