import GpuTelemetry.Text.Basic

namespace GpuTelemetry

inductive Status where
  | ok
  /-- No backend is registered for the vendor. -/
  | noBackend
  /-- The source is unavailable, or the device is gone. -/
  | detectionFailed
  /-- There is no device of that index. -/
  | notFound
  | invalidArgument
  /-- A background query was not waited for any longer. -/
  | timeout
deriving DecidableEq, Repr, Inhabited

def Status.name : Status → Text
  | .ok => utf8 "OK"
  | .noBackend => utf8 "NO_BACKEND"
  | .detectionFailed => utf8 "DETECTION_FAILED"
  | .notFound => utf8 "NOT_FOUND"
  | .invalidArgument => utf8 "INVALID_ARGUMENT"
  | .timeout => utf8 "TIMEOUT"

def Status.isOk (s : Status) : Bool := s == .ok

end GpuTelemetry
