import GpuTelemetry.Text.Basic

namespace GpuTelemetry

inductive Severity where
  | warning | error
deriving DecidableEq, Repr

structure Notice where
  severity : Severity
  message : Text
deriving DecidableEq, Repr

def Notice.warning (message : Text) : Notice := ⟨.warning, message⟩

def Notice.error (message : Text) : Notice := ⟨.error, message⟩

def Severity.name : Severity → Text
  | .warning => utf8 "warning"
  | .error => utf8 "error"

end GpuTelemetry
