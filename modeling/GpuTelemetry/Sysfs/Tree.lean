import GpuTelemetry.Text.Basic
/-!
A tree of files and directories. A path is followed one name at a time, so what it leads to depends on
the directories on its way: `a/../f` is `f` only if there is a directory `a`.
-/

namespace GpuTelemetry

namespace FileTree

/-- What stands between the slashes of a path. -/
abbrev Path := List Text

def Path.ofText (s : Text) : Path := Text.pieces 47 s

/-- The written path, as far as it counts: it ends at its first NUL. -/
def Path.text (p : Path) : Text := Text.beforeNul (Text.sep [47] p)

inductive Node where
  | file (content : Text)
  | directory (entries : List (Text × Node))

namespace Node

def empty : Node := .directory []

def entries : Node → List (Text × Node)
  | .file _ => []
  | .directory es => es

def child? (t : Node) (name : Text) : Option Node := t.entries.lookup name

/-! Changes. They take names as they are. -/

/-- Puts `c` in the place of the child of that name, or adds it. -/
def setChild (t : Node) (name : Text) (c : Node) : Node :=
  if (t.child? name).isSome then
    .directory (t.entries.map fun e => if e.1 == name then (name, c) else e)
  else .directory (t.entries ++ [(name, c)])

/-- Puts a node where the names lead, with a directory for each one missing on the way. -/
def insert (t : Node) (new : Node) : List Text → Node
  | [] => new
  | name :: p => t.setChild name (((t.child? name).getD empty).insert new p)

/-- Takes away the node where the names lead, with all below it. -/
def erase (t : Node) : List Text → Node
  | [] => empty
  | [name] => .directory (t.entries.filter (·.1 != name))
  | name :: p =>
    match t.child? name with
    | some c => t.setChild name (c.erase p)
    | none => t

end Node

/-- A node and the directories on the way to it, the nearest first, each with the name taken there. -/
structure Place where
  node : Node
  above : List (Text × Node)

namespace Place

def top (t : Node) : Place := ⟨t, []⟩

/-- The names taken from the top on. -/
def names (s : Place) : Path := (s.above.map (·.1)).reverse

/-- One directory up. Nothing is found above the top. -/
def up (s : Place) : Place :=
  match s.above with
  | [] => top .empty
  | (_, d) :: above => ⟨d, above⟩

/-- One name further. Only a directory can be left: to an entry of that name, or with two dots to the
directory above; a dot and an empty name stay. -/
def step? (s : Place) (name : Text) : Option Place :=
  match s.node with
  | .file _ => none
  | .directory es =>
    match es.lookup name with
    | some c => some ⟨c, (name, s.node) :: s.above⟩
    | none =>
      if name = [] ∨ name = utf8 "." then some s
      else if name = utf8 ".." then some s.up
      else none

/-- Where a path leads. It ends at its first NUL. -/
def follow? (s : Place) : Path → Option Place
  | [] => some s
  | name :: p =>
    match s.step? name with
    | some s => s.follow? p
    | none => if name.contains 0 then s.step? (Text.beforeNul name) else none

end Place

end FileTree

/-- A tree below a directory of the system. What is asked of it is a path below that directory, and the
system gets the path of the directory, a slash and that path. -/
structure FileTree where
  top : FileTree.Node
  /-- The bytes of the path of the top and of the slash behind it. -/
  way : Nat := 0

namespace FileTree

def empty : FileTree := { top := .empty }

/-- The system takes the path: it is of at most 4095 bytes in all, and no name in it is longer than 255. -/
def takes (t : FileTree) (p : Path) : Bool :=
  t.way + p.text.length ≤ 4095 && (Path.ofText p.text).all (·.length ≤ 255)

/-- Where a path leads from the top; one that is not taken leads nowhere. -/
def place? (t : FileTree) (p : Path) : Option Place :=
  if t.takes p then (Place.top t.top).follow? p else none

def node? (t : FileTree) (p : Path) : Option Node := (t.place? p).map (·.node)

/-- The content of a file. A directory can be opened too, and nothing is read from it. -/
def readText (t : FileTree) (p : Path) : Option Text :=
  match t.node? p with
  | some (.file content) => some content
  | some (.directory _) => some []
  | none => none

/-- The first line without surrounding blanks, if anything is left of it. -/
def readLine (t : FileTree) (p : Path) : Option Text :=
  match t.readText p with
  | some s =>
    let line := Text.trim (Text.firstLine s)
    if line.isEmpty then none else some line
  | none => none

def isDirectory (t : FileTree) (p : Path) : Bool :=
  match t.node? p with
  | some (.directory _) => true
  | _ => false

/-- The names in a directory that start with `start`, in order. -/
def list (t : FileTree) (p : Path) (start : Text) : List Text :=
  match t.node? p with
  | some d => ((d.entries.map (·.1)).filter (Text.startsWith · start)).mergeSort Text.le
  | none => []

/-- Puts a node at a path, if the directory it belongs to is there and its name is not too long. -/
def attach (t : FileTree) (p : Path) (new : Node) : FileTree :=
  if t.takes p then
    match t.place? p.dropLast with
    | some s =>
      match s.node with
      | .directory _ =>
        { t with top := t.top.insert new (s.names ++ [Text.beforeNul (p.getLastD [])]) }
      | .file _ => t
    | none => t
  else t

/-- Makes a directory at a path and all that are missing on the way. -/
def makeDirectory (t : FileTree) (p : Path) : FileTree :=
  (List.range (p.length + 1)).foldl
    (fun t n => if (t.node? (p.take n)).isSome then t else t.attach (p.take n) .empty) t

/-- Writes a file at a path, with the directories on the way; a directory is not overwritten. -/
def writeFile (t : FileTree) (p : Path) (content : Text) : FileTree :=
  let t := t.makeDirectory p.dropLast
  if t.isDirectory p then t else t.attach p (.file content)

/-- Removes what a path leads to. -/
def remove (t : FileTree) (p : Path) : FileTree :=
  match t.place? p with
  | some s => { t with top := t.top.erase s.names }
  | none => t

end FileTree

end GpuTelemetry
