import GpuTelemetry.Text.Basic
/-!
Who made a device. Intel devices also have a kind; for other vendors a kind may be present and counts
for nothing.
-/

namespace GpuTelemetry

inductive Family where
  | unknown | nvidia | amd | intel
deriving DecidableEq, Repr, Inhabited

inductive IntelKind where
  | unknown | integrated | discrete
deriving DecidableEq, Repr, Inhabited

structure Vendor where
  family : Family := .unknown
  kind : IntelKind := .unknown
deriving DecidableEq, Repr, Inhabited

def Family.name : Family → Text
  | .unknown => utf8 "Unknown"
  | .nvidia => utf8 "NVIDIA"
  | .amd => utf8 "AMD"
  | .intel => utf8 "Intel"

def Family.index : Family → Nat
  | .unknown => 0
  | .nvidia => 1
  | .amd => 2
  | .intel => 3

def IntelKind.name : IntelKind → Text
  | .unknown => utf8 "unknown"
  | .integrated => utf8 "integrated"
  | .discrete => utf8 "discrete"

def IntelKind.index : IntelKind → Nat
  | .unknown => 0
  | .integrated => 1
  | .discrete => 2

namespace Vendor

def nvidia : Vendor := { family := .nvidia }
def amd : Vendor := { family := .amd }
def intel (kind : IntelKind := .unknown) : Vendor := { family := .intel, kind }

def isKnown (v : Vendor) : Bool := v.family != .unknown

/-- Identity: the family, and for Intel the kind. -/
def same (a b : Vendor) : Bool := a.family == b.family && (a.family != .intel || a.kind == b.kind)

def sameFamily (a b : Vendor) : Bool := a.family == b.family

def displayName (v : Vendor) : Text :=
  match v.family, v.kind with
  | .intel, .integrated => utf8 "Intel (integrated)"
  | .intel, .discrete => utf8 "Intel (discrete)"
  | f, _ => f.name

/-- A hash that agrees with `same`, from any hash of small numbers. -/
def identityHash (hashNat : Nat → UInt64) (v : Vendor) : UInt64 :=
  hashNat (v.family.index * 8 + if v.family = .intel then v.kind.index else 0)

def pciNvidia : UInt32 := 0x10de
def pciAmd : UInt32 := 0x1002
def pciIntel : UInt32 := 0x8086

def ofPci (id : UInt32) : Vendor :=
  if id = pciNvidia then nvidia
  else if id = pciAmd then amd
  else if id = pciIntel then intel
  else {}

end Vendor

/-- Product names that mark a card of its own. -/
def discreteMarks : List Text := [utf8 "Arc", utf8 "Xe MAX", utf8 "DG1", utf8 "DG2"]

/-- Product names that mark graphics in the processor. -/
def integratedMarks : List Text := [utf8 "UHD", utf8 "Iris", utf8 "HD Graphics"]

/-- The kind a product name tells; a discrete mark wins over an integrated one. -/
def IntelKind.ofName (name : Text) : IntelKind :=
  if discreteMarks.any (Text.includesFolded · name) then .discrete
  else if integratedMarks.any (Text.includesFolded · name) then .integrated
  else .unknown

end GpuTelemetry
