import GpuTelemetry.Filter
import GpuTelemetry.Quantity

namespace GpuTelemetry

open Decimal (Double)

structure Statistics where
  total : Nat := 0
  nvidia : Nat := 0
  amd : Nat := 0
  intel : Nat := 0
  unknown : Nat := 0
  active : Nat := 0
  totalTemperatureC : Double := .ofFloat 0
  temperatureReadings : Nat := 0
  totalPowerW : Double := .ofFloat 0
  powerReadings : Nat := 0
deriving Inhabited

namespace Statistics

def countFamily (s : Statistics) : Family → Statistics
  | .nvidia => { s with nvidia := s.nvidia + 1 }
  | .amd => { s with amd := s.amd + 1 }
  | .intel => { s with intel := s.intel + 1 }
  | .unknown => { s with unknown := s.unknown + 1 }

def countActive (s : Statistics) (r : Reading) : Statistics :=
  if r.isActive then { s with active := s.active + 1 } else s

def addTemperature (s : Statistics) : Option Double → Statistics
  | none => s
  | some x => { s with totalTemperatureC := s.totalTemperatureC.add x,
                       temperatureReadings := s.temperatureReadings + 1 }

def addPower (s : Statistics) : Option Double → Statistics
  | none => s
  | some x => { s with totalPowerW := s.totalPowerW.add x, powerReadings := s.powerReadings + 1 }

def add (s : Statistics) (r : Reading) : Statistics :=
  ((({ s with total := s.total + 1 }.countFamily r.vendor.family).countActive r).addTemperature
    r.temperatureC).addPower r.powerUsageW

/-- Sums run in the order of the devices. -/
def ofDevices (rs : List Reading) : Statistics := rs.foldl add {}

/-- The mean over the devices that report a temperature. -/
def averageTemperatureC (s : Statistics) : Option Double :=
  if s.temperatureReadings = 0 then none
  else some (s.totalTemperatureC.divBy s.temperatureReadings.toUInt64.toFloat)

/-- The sum over the devices that report their power draw. -/
def powerConsumptionW (s : Statistics) : Option Double :=
  if s.powerReadings = 0 then none else some s.totalPowerW

def summary (s : Statistics) : Text :=
  Text.ofNat s.total ++ utf8 " GPU(s) (NVIDIA " ++ Text.ofNat s.nvidia
    ++ utf8 ", AMD " ++ Text.ofNat s.amd ++ utf8 ", Intel " ++ Text.ofNat s.intel
    ++ utf8 ", unknown " ++ Text.ofNat s.unknown ++ utf8 "), active " ++ Text.ofNat s.active
    ++ utf8 ", avg temp "
    ++ Quantity.orNa (Decimal.plain.fixed 1) (utf8 "C") s.averageTemperatureC
    ++ utf8 ", total power "
    ++ Quantity.orNa (Decimal.plain.fixed 1) (utf8 "W") s.powerConsumptionW

end Statistics

namespace Reading

/-- The devices of a vendor's family. -/
def ofFamily (v : Vendor) (rs : List Reading) : List Reading := rs.filter (·.vendor.sameFamily v)

/-- The positions of the active devices, counted from `start`. -/
def activeIndices (start : Nat) : List Reading → List Nat
  | [] => []
  | r :: rs => if r.isActive then start :: activeIndices (start + 1) rs else activeIndices (start + 1) rs

/-- There are devices, and all are active. -/
def allActive (rs : List Reading) : Bool := !rs.isEmpty && rs.all isActive

end Reading

end GpuTelemetry
