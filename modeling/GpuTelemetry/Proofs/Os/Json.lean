import GpuTelemetry.Os.Identity
import GpuTelemetry.Proofs.Decimal.Layout
import GpuTelemetry.Proofs.Json.Strings
import GpuTelemetry.Proofs.Text.Spelling

namespace GpuTelemetry

open Json (Decodes IsNumber IsObject IsString Value)

/-! ### Whole numbers -/

namespace Text

theorem decimalValue_append (ds : Text) (d : UInt8) :
    decimalValue (ds ++ [d]) = d.toNat - 48 + 10 * decimalValue ds := by
  simp [decimalValue, Nat.ofDigits_cons]

theorem decimalValue_ofNat (n : ℕ) : decimalValue (ofNat n) = n := by
  have hdigit : ∀ d < 10, (48 + d).toUInt8.toNat - 48 = d := by decide
  induction n using Nat.strong_induction_on with
  | _ n ih =>
    rcases Nat.lt_or_ge n 10 with hlt | hle
    · rw [ofNat_of_lt hlt]
      exact (decimalValue_append [] _).trans (hdigit n hlt)
    · rw [ofNat_of_le hle, decimalValue_append, hdigit _ (Nat.mod_lt n (by decide)),
        ih (n / 10) (by omega)]
      exact Nat.mod_add_div n 10

/-- An integer is written as a numeral of its magnitude with its sign. -/
theorem spells_ofInt (i : ℤ) : Spells (ofInt i) (i < 0) i.natAbs := by
  have hdigits : ∀ d ∈ ofNat i.natAbs, 48 ≤ d ∧ d ≤ 57 := by
    intro d hd
    exact (isDigit_iff d).1 (isDigit_of_mem_ofNat d hd)
  have hspells {sign : Text} (hsign : sign ∈ signs (i < 0)) :
      Spells (sign ++ ofNat i.natAbs) (i < 0) i.natAbs :=
    ⟨[], sign, ofNat i.natAbs, rfl, nofun, hsign, ofNat_ne_nil _, hdigits, decimalValue_ofNat _⟩
  rw [ofInt]
  by_cases hi : i < 0
  · rw [if_pos hi]
    exact hspells (by simp [signs, hi]; rfl)
  · rw [if_neg hi]
    have hnone : [] ∈ signs (i < 0) := by simp [signs, hi]
    exact hspells hnone

theorem isNumber_ofInt (i : ℤ) : IsNumber (ofInt i) := by
  rw [ofInt]
  split
  · exact .minus (magnitude_ofNat _)
  · exact .plus (magnitude_ofNat _)

end Text

/-! ### Members -/

namespace Os.Identity

inductive Held where
  | text (s : Text)
  | whole (i : ℤ)

/-- The token says what is held, and nothing else. -/
def Held.SaidBy : Held → Text → Prop
  | .text s, token => IsString token ∧ ∀ t, Decodes token t ↔ t = s
  | .whole i, token => IsNumber token ∧ Text.Spells token (i < 0) i.natAbs

def fields (os : Identity) : List (Text × Held) :=
  [(utf8 "type", .text os.distribution.name),
   (utf8 "id", .text os.id),
   (utf8 "name", .text os.name),
   (utf8 "version", .text os.version),
   (utf8 "codename", .text os.codename),
   (utf8 "architecture", .text os.architecture),
   (utf8 "bitDepth", .whole os.bitDepth),
   (utf8 "kernelRelease", .text os.kernelRelease)]

structure Shows (field : Text × Held) (said : Text × Text) : Prop where
  name : Decodes said.1 field.1
  value : field.2.SaidBy said.2

theorem Held.SaidBy.value {held : Held} {token : Text} (h : held.SaidBy token) : Value token := by
  cases held with
  | text s => exact .string h.1
  | whole i => exact .number h.1

theorem shows_text (name s : Text) : Shows (name, .text s) (Text.quote name, Text.quote s) :=
  ⟨Json.decodes_quote name, Json.isString_quote s, fun _ => Json.decodes_quote_iff⟩

theorem shows_whole (name : Text) (i : ℤ) : Shows (name, .whole i) (Text.quote name, Text.ofInt i) :=
  ⟨Json.decodes_quote name, Text.isNumber_ofInt i, Text.spells_ofInt i⟩

theorem shows_members (os : Identity) :
    List.Forall₂ Shows os.fields (os.members.map fun m => (Text.quote m.1, m.2)) :=
  .cons (shows_text _ _) <| .cons (shows_text _ _) <| .cons (shows_text _ _) <|
    .cons (shows_text _ _) <| .cons (shows_text _ _) <| .cons (shows_text _ _) <|
    .cons (shows_whole _ _) <| .cons (shows_text _ _) .nil

/-- The object says what the fields hold. -/
theorem isObject_json (os : Identity) :
    ∃ said, IsObject said os.json ∧ List.Forall₂ Shows os.fields said := by
  refine ⟨_, Json.isObject_object fun m hm => ?_, os.shows_members⟩
  have hsaid := List.mem_map_of_mem (f := fun m => (Text.quote m.1, m.2)) hm
  obtain ⟨field, hshows⟩ := Json.exists_of_forall₂ os.shows_members _ hsaid
  exact hshows.value.value

/-- **What is quoted is read back.** Between quotes every text is a JSON string without control characters,
which ends at its own closing quote whatever follows, and says that text and no other; so no two texts are
written alike, and an operating system is written as a JSON object whose strings say what its texts are. -/
theorem quoted_reads_back :
    (∀ s, IsString (Text.quote s) ∧ (∀ b ∈ Text.escape s, 32 ≤ b) ∧
      (∀ t, Decodes (Text.quote s) t ↔ t = s) ∧
      ∀ after token rest, Text.quote s ++ after = token ++ rest → IsString token →
        token = Text.quote s ∧ rest = after) ∧
    Function.Injective Text.escape ∧
    ∀ os : Identity, ∃ said, IsObject said os.json ∧ List.Forall₂ Shows os.fields said := by
  refine ⟨fun s => ⟨Json.isString_quote s, ?_, fun _ => Json.decodes_quote_iff, ?_⟩,
    Json.escape_injective, isObject_json⟩
  · intro b hb
    exact (Json.isString_quote s).printable b (by simp [Text.quote, hb])
  · intro after token rest heq htoken
    obtain ⟨htext, hrest⟩ := (Json.isString_quote s).ends htoken heq
    exact ⟨htext.symm, hrest.symm⟩

end Os.Identity

end GpuTelemetry
