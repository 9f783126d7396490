import GpuTelemetry.Reading.Basic
/-!
Selecting devices. A filter has at most one bound of each kind; setting a kind again replaces the
earlier bound, and a device is selected when it meets all that are set. A bound on a metric is met
only by devices that report the metric.
-/

namespace GpuTelemetry

open Decimal (Double)

structure Filter where
  vendor : Option Vendor := none
  minTemperature : Option Double := none
  maxTemperature : Option Double := none
  minUtilization : Option Double := none
  maxUtilization : Option Double := none
  activeOnly : Bool := false
  withTemperature : Bool := false
  withPower : Bool := false
deriving Inhabited

/-- One condition on devices. -/
inductive Condition where
  | vendor (v : Vendor)
  | minTemperature (x : Double)
  | maxTemperature (x : Double)
  | minUtilization (x : Double)
  | maxUtilization (x : Double)
  | activeOnly
  | withTemperature
  | withPower

namespace Filter

def add (f : Filter) : Condition → Filter
  | .vendor v => { f with vendor := some v }
  | .minTemperature x => { f with minTemperature := some x }
  | .maxTemperature x => { f with maxTemperature := some x }
  | .minUtilization x => { f with minUtilization := some x }
  | .maxUtilization x => { f with maxUtilization := some x }
  | .activeOnly => { f with activeOnly := true }
  | .withTemperature => { f with withTemperature := true }
  | .withPower => { f with withPower := true }

def ofConditions (cs : List Condition) : Filter := cs.foldl add {}

/-- No bound, or a present value from the bound on. -/
def atLeast (bound value : Option Double) : Bool := bound.all fun b => value.any (·.value ≥ b.value)

/-- No bound, or a present value up to the bound. -/
def atMost (bound value : Option Double) : Bool := bound.all fun b => value.any (·.value ≤ b.value)

def accepts (f : Filter) (r : Reading) : Bool :=
  f.vendor.all (r.vendor.sameFamily ·)
    && atLeast f.minTemperature r.temperatureC && atMost f.maxTemperature r.temperatureC
    && atLeast f.minUtilization r.utilizationPercent && atMost f.maxUtilization r.utilizationPercent
    && (!f.activeOnly || r.isActive)
    && (!f.withTemperature || r.temperatureC.isSome)
    && (!f.withPower || r.powerUsageW.isSome)

/-- The accepted devices, in order. -/
def collect (f : Filter) (rs : List Reading) : List Reading := rs.filter f.accepts

def count (f : Filter) (rs : List Reading) : Nat := rs.countP f.accepts

def first (f : Filter) (rs : List Reading) : Option Reading := rs.find? f.accepts

def any (f : Filter) (rs : List Reading) : Bool := (f.first rs).isSome

end Filter

end GpuTelemetry
