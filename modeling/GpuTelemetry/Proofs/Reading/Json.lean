import GpuTelemetry.Reading.Summary
import GpuTelemetry.Smi.Table
import GpuTelemetry.Proofs.Decimal.Layout
import GpuTelemetry.Proofs.Json.Balance
/-!
A reading as a JSON object. Its members show the fields, each in its place, and a field that is absent is
null. All of this holds as long as the measured numbers are finite; a number that is not makes the text
no JSON at all.
-/

namespace GpuTelemetry

open Json (IsString IsNumber IsObject Value Closed surplus)
open Quantity (orNull)
open Decimal (Double plain)

/-! ### What the members should be -/

namespace Json

inductive Kind where
  | string | number | truth

def Kind.Token : Kind → Text → Prop
  | .string => IsString
  | .number => IsNumber
  | .truth => fun s => s = utf8 "true" ∨ s = utf8 "false"

structure Field where
  name : Text
  kind : Kind
  present : Bool

/-- The member has the name of the field, and is null exactly when the field is absent. -/
structure Field.Shows (f : Field) (said : Text × Text) : Prop where
  name : said.1 = 34 :: f.name ++ [34]
  absent : said.2 = utf8 "null" ↔ f.present = false
  token : f.present = true → f.kind.Token said.2

variable {s : Text} {f : Field} {said : Text × Text}

theorem Kind.value {k : Kind} (h : k.Token s) : Value s := by
  cases k with
  | string => exact .string h
  | number => exact .number h
  | truth =>
    rcases h with rfl | rfl
    · exact .yes
    · exact .no

theorem Kind.ne_null {k : Kind} (h : k.Token s) : s ≠ utf8 "null" := by
  rintro rfl
  cases k with
  | string => exact nomatch h
  | number => exact absurd (light_number h 110 (by decide)).2 (by decide)
  | truth => rcases h with h | h <;> exact absurd h (by decide)

theorem Field.Shows.value (h : f.Shows said) : Value said.2 := by
  cases hp : f.present with
  | true => exact Kind.value (h.token hp)
  | false =>
    rw [h.absent.2 hp]
    exact .null

end Json

open Json (Field)

section Shows

variable {name : Text} {kind : Json.Kind} (hname : Text.quote name = 34 :: name ++ [34])

include hname

theorem shows_present {s : Text} (h : kind.Token s) :
    Field.Shows ⟨name, kind, true⟩ (Text.quote name, s) :=
  ⟨hname, iff_of_false (Json.Kind.ne_null h) nofun, fun _ => h⟩

theorem shows_null : Field.Shows ⟨name, kind, false⟩ (Text.quote name, Text.null) :=
  ⟨hname, iff_of_true rfl rfl, nofun⟩

theorem shows_orNull {α : Type} {x : Option α} {write : α → Text}
    (h : ∀ a ∈ x, kind.Token (write a)) :
    Field.Shows ⟨name, kind, x.isSome⟩ (Text.quote name, orNull write x) := by
  cases x with
  | none => exact shows_null hname
  | some a => exact shows_present hname (h a rfl)

theorem shows_ite {c : Prop} [Decidable c] {s : Text} (h : kind.Token s) :
    Field.Shows ⟨name, kind, c⟩ (Text.quote name, if c then s else Text.null) := by
  by_cases hc : c
  · simp only [hc, decide_true, if_true]
    exact shows_present hname h
  · simp only [hc, decide_false, if_false]
    exact shows_null hname

end Shows

namespace Reading

def fields (r : Reading) : List Field :=
  [⟨utf8 "vendor", .string, true⟩,
   ⟨utf8 "intelKind", .string, r.vendor.family = .intel⟩,
   ⟨utf8 "name", .string, r.name.isSome⟩,
   ⟨utf8 "driverVersion", .string, r.driverVersion.isSome⟩,
   ⟨utf8 "temperatureC", .number, r.temperatureC.isSome⟩,
   ⟨utf8 "utilizationPercent", .number, r.utilizationPercent.isSome⟩,
   ⟨utf8 "coreClockMHz", .number, r.coreClockMHz.isSome⟩,
   ⟨utf8 "memoryClockMHz", .number, r.memoryClockMHz.isSome⟩,
   ⟨utf8 "maxClockMHz", .number, r.maxClockMHz.isSome⟩,
   ⟨utf8 "powerUsageW", .number, r.powerUsageW.isSome⟩,
   ⟨utf8 "powerLimitW", .number, r.powerLimitW.isSome⟩,
   ⟨utf8 "memoryUsedBytes", .number, r.memoryUsedBytes.isSome⟩,
   ⟨utf8 "memoryTotalBytes", .number, r.memoryTotalBytes.isSome⟩,
   ⟨utf8 "active", .truth, r.active.isSome⟩]

def measured (r : Reading) : List (Option Double) :=
  [r.temperatureC, r.utilizationPercent, r.powerUsageW, r.powerLimitW]

def Finite (r : Reading) : Prop := ∀ x ∈ r.measured, ∀ d ∈ x, d.finite = true

instance : DecidablePred Finite := fun r =>
  inferInstanceAs (Decidable (∀ x ∈ r.measured, ∀ d ∈ x, d.finite = true))

variable {r : Reading}

def Broken (r : Reading) (s : Text) : Prop :=
  ∃ x ∈ r.measured, ∃ d ∈ x, d.finite = false ∧ plain.shortest d = s

/-- Every member shows its field, or holds a number that is not finite. -/
theorem shows_or_broken (r : Reading) : List.Forall₂ (fun f said => f.Shows said ∨ r.Broken said.2)
    r.fields (r.members.map fun m => (Text.quote m.1, m.2)) := by
  have hdouble {name : Text} {x : Option Double} (hname : Text.quote name = 34 :: name ++ [34])
      (hx : x ∈ r.measured) : Field.Shows ⟨name, .number, x.isSome⟩
        (Text.quote name, orNull plain.shortest x) ∨ r.Broken (orNull plain.shortest x) := by
    by_cases hfinite : ∀ d ∈ x, d.finite = true
    · exact Or.inl (shows_orNull hname fun d hd => Decimal.isNumber_shortest (hfinite d hd))
    · push Not at hfinite
      obtain ⟨d, rfl, hd⟩ := hfinite
      exact Or.inr ⟨_, hx, d, rfl, by simpa using hd, rfl⟩
  have htext (s : Text) : Json.Kind.string.Token (Text.quote s) := Json.isString_quote s
  have hword (n : ℕ) : Json.Kind.number.Token (Text.ofNat n) :=
    .plus (Text.magnitude_ofNat n)
  have htruth (b : Bool) : Json.Kind.truth.Token (Text.ofBool b) := by
    cases b with
    | false => exact Or.inr rfl
    | true => exact Or.inl rfl
  -- one step for each member, in the order in which they stand
  refine .cons (Or.inl (shows_present rfl (htext _))) <|
    .cons (Or.inl (shows_ite rfl (htext _))) <|
    .cons (Or.inl (shows_orNull rfl fun _ _ => htext _)) <|
    .cons (Or.inl (shows_orNull rfl fun _ _ => htext _)) <|
    .cons (hdouble rfl ?_) <| .cons (hdouble rfl ?_) <|
    .cons (Or.inl (shows_orNull rfl fun _ _ => hword _)) <|
    .cons (Or.inl (shows_orNull rfl fun _ _ => hword _)) <|
    .cons (Or.inl (shows_orNull rfl fun _ _ => hword _)) <|
    .cons (hdouble rfl ?_) <| .cons (hdouble rfl ?_) <|
    .cons (Or.inl (shows_orNull rfl fun _ _ => hword _)) <|
    .cons (Or.inl (shows_orNull rfl fun _ _ => hword _)) <|
    .cons (Or.inl (shows_orNull rfl fun _ _ => htruth _)) .nil
  all_goals simp [measured]

/-- Each member shows its field, as long as what was measured is finite. -/
theorem shows_members (h : r.Finite) :
    List.Forall₂ Field.Shows r.fields (r.members.map fun m => (Text.quote m.1, m.2)) := by
  refine (shows_or_broken r).imp fun f said hsaid => hsaid.resolve_right ?_
  rintro ⟨x, hx, d, hd, hinfinite, _⟩
  rw [h x hx d hd] at hinfinite
  cases hinfinite

/-- If what was measured is finite, the object shows all fields in their places. -/
theorem isObject_json (h : r.Finite) :
    ∃ said, IsObject said r.json ∧ List.Forall₂ Field.Shows r.fields said := by
  have hshows := shows_members h
  refine ⟨_, Json.isObject_object fun m hm => ?_, hshows⟩
  obtain ⟨f, hf⟩ := Json.exists_of_forall₂ hshows _ (List.mem_map_of_mem hm)
  exact hf.value

/-! ### Numbers that are not finite -/

theorem Broken.closed {s : Text} (h : r.Broken s) : ∃ n, Closed s n ∧ 0 < n := by
  obtain ⟨x, _, d, _, hd, rfl⟩ := h
  obtain ⟨negative, hnan | hinf⟩ := Decimal.shortest_not_finite hd
  · rw [hnan]
    cases negative with
    | false => exact ⟨_, Json.closed_unquoted (by decide +kernel), by decide +kernel⟩
    | true => exact ⟨_, Json.closed_unquoted (by decide +kernel), by decide +kernel⟩
  · rw [hinf]
    cases negative with
    | false => exact ⟨_, Json.closed_unquoted (by decide +kernel), by decide +kernel⟩
    | true => exact ⟨_, Json.closed_unquoted (by decide +kernel), by decide +kernel⟩

theorem exists_broken (h : ¬ r.Finite) : ∃ m ∈ r.members, r.Broken m.2 := by
  simp only [Finite, not_forall, Bool.not_eq_true] at h
  obtain ⟨x, hx, d, rfl, hd⟩ := h
  have hmember : ∃ name, (name, plain.shortest d) ∈ r.members := by
    simp only [measured, List.mem_cons, List.not_mem_nil, or_false] at hx
    rcases hx with hx | hx | hx | hx
    · exact ⟨utf8 "temperatureC", by simp [members, ← hx, orNull]⟩
    · exact ⟨utf8 "utilizationPercent", by simp [members, ← hx, orNull]⟩
    · exact ⟨utf8 "powerUsageW", by simp [members, ← hx, orNull]⟩
    · exact ⟨utf8 "powerLimitW", by simp [members, ← hx, orNull]⟩
  obtain ⟨name, hm⟩ := hmember
  exact ⟨_, hm, _, hx, d, rfl, hd, rfl⟩

/-- A number that is not finite makes the text no JSON. -/
theorem not_value_json (h : ¬ r.Finite) : ¬ Value r.json := by
  obtain ⟨m, hm, hbroken⟩ := exists_broken h
  obtain ⟨n, hn, hpos⟩ := hbroken.closed
  have hname (m : Text × Text) := Json.closed_string (Json.isString_quote m.1)
  have hjson : r.json = Json.bracketed 123 125 [] (r.members.map fun m =>
      Text.quote m.1 ++ 58 :: m.2) := rfl
  rw [hjson]
  refine Json.not_value_of_item (by decide +kernel) (by decide +kernel) Json.blank_nil ?_
    (List.mem_map_of_mem hm) (Json.closed_member (hname m) hn) hpos
  -- no other member weighs less than nothing
  rw [List.forall_mem_map]
  intro m hm
  obtain ⟨f, hf⟩ := Json.exists_of_forall₂ (shows_or_broken r) _ (List.mem_map_of_mem hm)
  rcases hf with hshows | hbroken
  · exact ⟨0, Json.closed_member (hname m) (Json.closed_value hshows.value), le_rfl⟩
  · obtain ⟨n, hn, hpos⟩ := hbroken.closed
    exact ⟨n, Json.closed_member (hname m) hn, hpos.le⟩

/-- A reading is written as JSON exactly if what was measured is finite. -/
theorem value_json_iff : Value r.json ↔ r.Finite := by
  constructor
  · intro hvalue
    by_contra h
    exact not_value_json h hvalue
  · intro h
    obtain ⟨said, hobject, _⟩ := isObject_json h
    exact hobject.value

end Reading

/-! ### Lines of a table -/

namespace Smi

def numerals (line : Text) : List Text :=
  [2, 3, 7, 8].filterMap fun i => (Text.fields 44 line)[i]?

variable {line : Text} {r : Reading}

/-- What was measured of a parsed line stands in its fields. -/
theorem measured_of_parseLine (h : parseLine line = some r) :
    r.measured = (numerals line).map Decimal.parseField := by
  unfold parseLine at h
  split at h
  case h_1 hfields =>
    obtain ⟨name, _, rfl⟩ := Option.map_eq_some_iff.1 h
    rw [numerals, hfields]
    rfl
  case h_2 => cases h

/-- **A line that is read prints as JSON exactly when its numbers are finite.** Then it is an object
that shows the fourteen fields in their order: the member of an absent field is null and that of any
other is not, and numbers are JSON numbers. A field that spells an infinity or what is not a number, or
a number too large, is taken over and printed as a word that JSON does not have. -/
theorem parsed_json_iff_finite (h : parseLine line = some r) :
    (Value r.json ↔ ∀ field ∈ numerals line, ∀ d ∈ Decimal.parseField field, d.finite = true) ∧
    (Value r.json →
      ∃ said, IsObject said r.json ∧ List.Forall₂ Field.Shows r.fields said) := by
  constructor
  · rw [Reading.value_json_iff, Reading.Finite, measured_of_parseLine h, List.forall_mem_map]
  · intro hvalue
    exact Reading.isObject_json (Reading.value_json_iff.1 hvalue)

def cardLine : Text := utf8 "Card, 535.54, 45.5, [N/A], 1500, , , 1e3, 250, 0x10, 24576"

/-- A card whose fields are finite. -/
theorem parsed_json_iff_finite_of_card : ∃ r, parseLine cardLine = some r ∧ Value r.json ∧
    ∃ said, IsObject said r.json ∧ List.Forall₂ Field.Shows r.fields said := by
  have hsome : (parseLine cardLine).isSome = true := by decide +kernel
  obtain ⟨r, hr⟩ := Option.isSome_iff_exists.1 hsome
  obtain ⟨hiff, hobject⟩ := parsed_json_iff_finite hr
  have hvalue : Value r.json := hiff.2 (by decide +kernel)
  exact ⟨r, hr, hvalue, hobject hvalue⟩

/-- A temperature that is not a number is printed as a bare word. -/
theorem nan_printed_bare :
    ∃ r, parseLine (utf8 "A,,nan,,,,,,,,") = some r ∧ ¬ Value r.json := by
  have hread : (parseLine (utf8 "A,,nan,,,,,,,,")).any (fun r => !decide r.Finite) = true := by
    decide +kernel
  obtain ⟨r, hr, hinfinite⟩ := (Option.any_eq_true _ _).1 hread
  exact ⟨r, hr, Reading.not_value_json (by simpa using hinfinite)⟩

end Smi

end GpuTelemetry
