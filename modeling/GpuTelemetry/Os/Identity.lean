import GpuTelemetry.Notice
import GpuTelemetry.Os.Release
import GpuTelemetry.Quantity
import GpuTelemetry.Sysfs.Tree

namespace GpuTelemetry.Os

/-- What the kernel tells of itself. -/
structure Kernel where
  machine : Text
  release : Text
deriving DecidableEq, Repr

/-- A field of the kernel holds at most 64 bytes, and a NUL ends it. -/
def Kernel.field (s : Text) : Text := (Text.beforeNul s).take 64

def Kernel.ofFields (machine release : Text) : Kernel := ⟨field machine, field release⟩

def machines64 : List Text :=
  [utf8 "x86_64", utf8 "aarch64", utf8 "ppc64", utf8 "ppc64le", utf8 "s390x", utf8 "riscv64",
   utf8 "loongarch64", utf8 "mips64"]

def machines32 : List Text :=
  [utf8 "i386", utf8 "i586", utf8 "i686", utf8 "armv7l", utf8 "armv6l", utf8 "riscv32", utf8 "mips"]

/-- The word size of a machine, zero if it is not known. -/
def bitDepth (machine : Text) : Int :=
  if machines64.contains machine then 64 else if machines32.contains machine then 32 else 0

def releasePath : FileTree.Path := [utf8 "etc", utf8 "os-release"]

def fallbackPath : FileTree.Path := [utf8 "usr", utf8 "lib", utf8 "os-release"]

/-- The release file that is read; the second one only if the first cannot be opened. -/
def releaseText (t : FileTree) : Option Text := (t.readText releasePath).or (t.readText fallbackPath)

/-- Adds what the kernel tells; with a kernel at hand the system is at least some Linux. -/
def Identity.withKernel (os : Identity) : Option Kernel → Identity
  | none => os
  | some k =>
    { os with
      architecture := k.machine
      kernelRelease := k.release
      bitDepth := Os.bitDepth k.machine
      distribution := if os.distribution = .unknown then .linux else os.distribution }

def kernelNotices : Option Kernel → List Notice
  | none => [.warning (utf8 "uname failed, architecture unknown")]
  | some _ => []

def identify (t : FileTree) (kernel : Option Kernel) : Identity :=
  let os := match releaseText t with
    | some text => (readRelease text {}).2
    | none => {}
  os.withKernel kernel

namespace Identity

def orNa (s : Text) : Text := if s.isEmpty then Quantity.notAvailable else s

def summary (os : Identity) : Text :=
  (if os.name.isEmpty then os.distribution.name else os.name) ++ 32 :: orNa os.version
    ++ utf8 " (" ++ orNa os.codename ++ utf8 "), kernel " ++ orNa os.kernelRelease
    ++ utf8 ", " ++ orNa os.architecture ++ 32 :: Text.ofInt os.bitDepth ++ utf8 "-bit"

def members (os : Identity) : List (Text × Text) :=
  [(utf8 "type", Text.quote os.distribution.name),
   (utf8 "id", Text.quote os.id),
   (utf8 "name", Text.quote os.name),
   (utf8 "version", Text.quote os.version),
   (utf8 "codename", Text.quote os.codename),
   (utf8 "architecture", Text.quote os.architecture),
   (utf8 "bitDepth", Text.ofInt os.bitDepth),
   (utf8 "kernelRelease", Text.quote os.kernelRelease)]

def json (os : Identity) : Text := Text.object os.members

end Identity

end GpuTelemetry.Os
