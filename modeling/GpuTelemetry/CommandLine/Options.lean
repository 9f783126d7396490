import GpuTelemetry.Text.Numeral
/-!
Options on a command line. A flag takes a fixed number of values, which are the tokens behind it
whatever they look like; tokens that are no flag are passed over, and of a repeated flag the last
occurrence counts.
-/

namespace GpuTelemetry.CommandLine

structure Flag where
  name : Text
  arity : Nat
  required : Bool := false
  description : Text := []
deriving DecidableEq, Repr

/-- Flags under their keys, the last defined first. Of two flags of one name the first in the list is
meant. -/
structure Options (κ : Type) where
  flags : List (κ × Flag) := []

/-- The values given to each flag. -/
structure Given (κ : Type) where
  values : List (κ × List Text) := []

inductive OptionError where
  | missingValues (flag : Text) (arity : Nat)
  | missingFlag (flag : Text)
deriving DecidableEq, Repr

def OptionError.message : OptionError → Text
  | .missingValues flag arity =>
    utf8 "Flag '" ++ flag ++ utf8 "' expects " ++ Text.ofNat arity ++ utf8 " value(s)"
  | .missingFlag flag => utf8 "Missing required argument '" ++ flag ++ utf8 "'"

section

variable {κ : Type} [DecidableEq κ]

/-- Puts `v` under `k`, in the place of an earlier value if there is one. -/
def setKey {α : Type} (k : κ) (v : α) (xs : List (κ × α)) : List (κ × α) :=
  if xs.any (·.1 = k) then xs.map fun x => if x.1 = k then (k, v) else x else (k, v) :: xs

def Options.ofList (fs : List (κ × Flag)) : Options κ :=
  { flags := fs.foldl (fun xs f => setKey f.1 f.2 xs) [] }

/-- The flag a token stands for. -/
def Options.flag? (o : Options κ) (token : Text) : Option (κ × Flag) :=
  o.flags.find? fun f => f.2.name = token

def Given.set (g : Given κ) (k : κ) (vs : List Text) : Given κ := { values := setKey k vs g.values }

def Given.values? (g : Given κ) (k : κ) : Option (List Text) := g.values.lookup k

def Given.has (g : Given κ) (k : κ) : Bool := (g.values? k).isSome

/-- Reads tokens from the left. What was read before an error is kept. -/
def Options.scan (o : Options κ) (g : Given κ) : List Text → Option OptionError × Given κ
  | [] => (none, g)
  | token :: rest =>
    match o.flag? token with
    | none => o.scan g rest
    | some (k, f) =>
      if rest.length < f.arity then (some (.missingValues f.name f.arity), g)
      else o.scan (g.set k (rest.take f.arity)) (rest.drop f.arity)
termination_by tokens => tokens.length
decreasing_by
  · simp
  · simp only [List.length_drop, List.length_cons]
    omega

/-- A required flag that was not given. -/
def Options.missing? (o : Options κ) (g : Given κ) : Option Flag :=
  (o.flags.find? fun f => f.2.required && !g.has f.1).map (·.2)

/-- Reads a command line; required flags are looked for when all tokens are read. -/
def Options.parse (o : Options κ) (tokens : List Text) : Option OptionError × Given κ :=
  match o.scan {} tokens with
  | (some e, g) => (some e, g)
  | (none, g) => ((o.missing? g).map fun f => .missingFlag f.name, g)

/-- The number a text starts with, if nothing is behind it up to a NUL: too large a one is the
largest word. A minus sign is refused at the very start only; behind blanks it negates modulo 2^64. -/
def number? (value : Text) : Option UInt64 :=
  if value.isEmpty || value.head? = some 45 then none
  else
    let s := Text.beforeNul value
    match Text.readNumeral 10 s with
    | some n => if n.rest.isEmpty then some n.word else none
    | none => if s.isEmpty then some 0 else none

/-- The first value of a flag as a number. -/
def Given.number? (g : Given κ) (k : κ) : Option UInt64 :=
  match g.values? k with
  | some (v :: _) => CommandLine.number? v
  | _ => none

end

/-- How a flag is called. -/
def Flag.form (f : Flag) : Text := f.name ++ (List.replicate f.arity (utf8 " <value>")).flatten

def Flag.helpLine (f : Flag) : Text :=
  utf8 "  " ++ Text.padRight 22 f.form ++ utf8 "  " ++ f.description
    ++ utf8 (if f.required then " (required)\n" else "\n")

/-- The help text: flags in the order of their names. -/
def Options.usage {κ : Type} (o : Options κ) (program description : Text) : Text :=
  utf8 "Usage: " ++ program ++ utf8 " [OPTIONS]\n\n"
    ++ (if description.isEmpty then [] else description ++ utf8 "\n\n")
    ++ utf8 "Options:\n"
    ++ ((o.flags.map (·.2)).mergeSort fun a b => Text.le a.name b.name).flatMap Flag.helpLine

end GpuTelemetry.CommandLine
