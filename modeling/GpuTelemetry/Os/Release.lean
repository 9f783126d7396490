import GpuTelemetry.Text.Quoted

namespace GpuTelemetry.Os

/-- The distributions told apart; `linux` is any other one. -/
inductive Distribution where
  | unknown | linux | alma | alpine | amazon | arch | centos | debian | fedora | kali | mint | nixos
  | opensuse | oracle | rhel | rocky | suse | ubuntu | void
deriving DecidableEq, Repr, Inhabited

namespace Distribution

def all : List Distribution :=
  [.unknown, .linux, .alma, .alpine, .amazon, .arch, .centos, .debian, .fedora, .kali, .mint, .nixos,
   .opensuse, .oracle, .rhel, .rocky, .suse, .ubuntu, .void]

def name : Distribution → Text
  | .unknown => utf8 "Unknown"
  | .linux => utf8 "Linux"
  | .alma => utf8 "AlmaLinux"
  | .alpine => utf8 "Alpine Linux"
  | .amazon => utf8 "Amazon Linux"
  | .arch => utf8 "Arch Linux"
  | .centos => utf8 "CentOS"
  | .debian => utf8 "Debian"
  | .fedora => utf8 "Fedora"
  | .kali => utf8 "Kali Linux"
  | .mint => utf8 "Linux Mint"
  | .nixos => utf8 "NixOS"
  | .opensuse => utf8 "openSUSE"
  | .oracle => utf8 "Oracle Linux"
  | .rhel => utf8 "Red Hat Enterprise Linux"
  | .rocky => utf8 "Rocky Linux"
  | .suse => utf8 "SUSE Linux Enterprise"
  | .ubuntu => utf8 "Ubuntu"
  | .void => utf8 "Void Linux"

/-- Identifiers and what they stand for. -/
def identifiers : List (Text × Distribution) :=
  [(utf8 "almalinux", .alma), (utf8 "alpine", .alpine), (utf8 "amzn", .amazon), (utf8 "arch", .arch),
   (utf8 "archarm", .arch), (utf8 "centos", .centos), (utf8 "debian", .debian),
   (utf8 "fedora", .fedora), (utf8 "kali", .kali), (utf8 "linuxmint", .mint), (utf8 "nixos", .nixos),
   (utf8 "opensuse", .opensuse), (utf8 "opensuse-leap", .opensuse),
   (utf8 "opensuse-tumbleweed", .opensuse), (utf8 "opensuse-microos", .opensuse),
   (utf8 "ol", .oracle), (utf8 "rhel", .rhel), (utf8 "rocky", .rocky), (utf8 "sles", .suse),
   (utf8 "sled", .suse), (utf8 "sles_sap", .suse), (utf8 "ubuntu", .ubuntu), (utf8 "void", .void)]

/-- The distribution of an identifier; any other text but the empty one is some Linux. -/
def ofId (id : Text) : Distribution :=
  if id.isEmpty then .unknown else (identifiers.lookup id).getD .linux

end Distribution

/-- What is known of the operating system; unknown texts are empty. -/
structure Identity where
  distribution : Distribution := .unknown
  id : Text := []
  name : Text := []
  version : Text := []
  codename : Text := []
  architecture : Text := []
  bitDepth : Int := 0
  kernelRelease : Text := []
deriving DecidableEq, Repr, Inhabited

/-- Takes off one level of matching quotes. -/
def unquote (value : Text) : Text :=
  match value with
  | q :: rest =>
    if (q = 34 ∨ q = 39) ∧ rest.getLast? = some q then rest.dropLast else value
  | [] => []

/-- What the assignments of a file have come to. -/
structure Assignments where
  id : Option Text := none
  prettyName : Text := []
  plainName : Text := []
  version : Option Text := none
  codename : Option Text := none
deriving DecidableEq, Repr

/-- The key and the unquoted value of a line; blank lines, comments and lines without `=` have none. -/
def assignment? (line : Text) : Option (Text × Text) :=
  let line := Text.trim line
  if line.isEmpty || line.head? == some 35 || !line.contains 61 then none
  else some (line.takeWhile (· != 61), unquote ((line.dropWhile (· != 61)).drop 1))

/-- A later assignment of a key replaces an earlier one; keys without a meaning here change nothing. -/
def Assignments.assign (a : Assignments) (key value : Text) : Assignments :=
  if key = utf8 "ID" then { a with id := some value }
  else if key = utf8 "PRETTY_NAME" then { a with prettyName := value }
  else if key = utf8 "NAME" then { a with plainName := value }
  else if key = utf8 "VERSION_ID" then { a with version := some value }
  else if key = utf8 "VERSION_CODENAME" then { a with codename := some value }
  else a

def Assignments.ofText (text : Text) : Assignments :=
  ((Text.lines text).filterMap assignment?).foldl (fun a kv => a.assign kv.1 kv.2) {}

/-- Fills in what a file tells; whether it tells an identifier. -/
def readRelease (text : Text) (os : Identity) : Bool × Identity :=
  let a := Assignments.ofText text
  (a.id.isSome,
   { os with
     id := a.id.getD os.id
     version := a.version.getD os.version
     codename := a.codename.getD os.codename
     name := if a.prettyName.isEmpty then a.plainName else a.prettyName
     distribution := match a.id with
       | some id => .ofId id
       | none => .unknown })

end GpuTelemetry.Os
