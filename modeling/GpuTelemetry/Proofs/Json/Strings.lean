import GpuTelemetry.Proofs.Json.Grammar
import Mathlib.Data.List.Nodup
import Mathlib.Data.Nat.Notation
import Mathlib.Logic.Function.Basic
import Mathlib.Tactic.ByContra

namespace GpuTelemetry.Json

inductive Denoted where
  | byte (b : UInt8)
  | codeUnit (n : ℕ)

def letters : List (UInt8 × UInt8) :=
  [(34, 34), (92, 92), (47, 47), (98, 8), (102, 12), (110, 10), (114, 13), (116, 9)]

inductive Denotes : Text → Denoted → Prop where
  | plain {b : UInt8} : 32 ≤ b → b ≠ 34 → b ≠ 92 → Denotes [b] (.byte b)
  | escaped {letter b : UInt8} : (letter, b) ∈ letters → Denotes [92, letter] (.byte b)
  | unicode {ds : Text} : ds.length = 4 → (∀ d ∈ ds, Text.isDigit 16 d = true) →
      Denotes (92 :: 117 :: ds) (.codeUnit (Text.digitsValue 16 ds))

inductive AllDenote : Text → List Denoted → Prop where
  | nil : AllDenote [] []
  | cons {c s : Text} {d : Denoted} {ds : List Denoted} : Denotes c d → AllDenote s ds →
      AllDenote (c ++ s) (d :: ds)

def encodePoint (n : ℕ) : Text := String.utf8EncodeChar (Char.ofNat n)

def High (n : ℕ) : Prop := 0xD800 ≤ n ∧ n < 0xDC00

def Low (n : ℕ) : Prop := 0xDC00 ≤ n ∧ n < 0xE000

instance : DecidablePred High := fun _ => inferInstanceAs (Decidable (_ ∧ _))

instance : DecidablePred Low := fun _ => inferInstanceAs (Decidable (_ ∧ _))

/-- The bytes of what is denoted, nothing if halves of a code point stand alone. A high half waits for the
low one. -/
def bytes? : Option ℕ → List Denoted → Option Text
  | none, [] => some []
  | none, .byte b :: ds => (bytes? none ds).map (b :: ·)
  | none, .codeUnit n :: ds =>
    if High n then bytes? (some n) ds
    else if Low n then none
    else (bytes? none ds).map (encodePoint n ++ ·)
  | some high, .codeUnit n :: ds =>
    if Low n then
      (bytes? none ds).map (encodePoint (0x10000 + (high - 0xD800) * 0x400 + (n - 0xDC00)) ++ ·)
    else none
  | some _, [] => none
  | some _, .byte _ :: _ => none

def Decodes (token t : Text) : Prop :=
  ∃ body ds, token = 34 :: body ++ [34] ∧ AllDenote body ds ∧ bytes? none ds = some t

variable {c c' s s' t t' : Text} {d d' : Denoted} {ds ds' : List Denoted}

/-! ### Where a string ends -/

theorem exists_denotes (h : Character c) : ∃ d, Denotes c d := by
  cases h with
  | plain hcontrol hquote hslash => exact ⟨_, .plain hcontrol hquote hslash⟩
  | @escaped b hb =>
    have hletters : utf8 "\"\\/bfnrt" = letters.map (·.1) := by decide
    rw [hletters] at hb
    obtain ⟨⟨_, x⟩, hx, rfl⟩ := List.mem_map.1 hb
    exact ⟨_, .escaped hx⟩
  | unicode hlength hdigits => exact ⟨_, .unicode hlength hdigits⟩

theorem exists_allDenote (h : Characters s) : ∃ ds, AllDenote s ds := by
  induction h with
  | nil => exact ⟨[], .nil⟩
  | cons hc _ ih =>
    obtain ⟨d, hd⟩ := exists_denotes hc
    obtain ⟨ds, hds⟩ := ih
    exact ⟨d :: ds, .cons hd hds⟩

theorem letter_ne_u {letter b : UInt8} (h : (letter, b) ∈ letters) : letter ≠ 117 := by
  rintro rfl
  simp [letters] at h

/-- A character ends where it ends, whatever follows, and stands for one thing. -/
theorem Denotes.unique (h : Denotes c d) (h' : Denotes c' d') (heq : c ++ s = c' ++ s') :
    c = c' ∧ d = d' ∧ s = s' := by
  cases h with
  | plain _ _ hslash =>
    cases h' with
    | plain =>
      obtain ⟨rfl, rfl⟩ := List.cons.inj heq
      exact ⟨rfl, rfl, rfl⟩
    | escaped => exact absurd (List.cons.inj heq).1 hslash
    | unicode => exact absurd (List.cons.inj heq).1 hslash
  | escaped hletter =>
    cases h' with
    | plain _ _ hslash => exact absurd (List.cons.inj heq).1.symm hslash
    | escaped hletter' =>
      obtain ⟨rfl, rfl⟩ := List.cons.inj (List.cons.inj heq).2
      -- no two escapes have the same letter
      have hone : (letters.map (·.1)).Nodup := by decide
      cases List.inj_on_of_nodup_map hone hletter hletter' rfl
      exact ⟨rfl, rfl, rfl⟩
    | unicode => exact absurd (List.cons.inj (List.cons.inj heq).2).1 (letter_ne_u hletter)
  | unicode hlength =>
    cases h' with
    | plain _ _ hslash => exact absurd (List.cons.inj heq).1.symm hslash
    | escaped hletter =>
      exact absurd (List.cons.inj (List.cons.inj heq).2).1.symm (letter_ne_u hletter)
    | unicode hlength' =>
      have hdigits := (List.cons.inj (List.cons.inj heq).2).2
      obtain ⟨rfl, rfl⟩ := List.append_inj hdigits (hlength.trans hlength'.symm)
      exact ⟨rfl, rfl, rfl⟩

/-- No character begins with a quote. -/
theorem Denotes.ne_quote (h : Denotes c d) : c ++ s ≠ 34 :: t := by
  intro heq
  cases h with
  | plain _ hquote => exact hquote (List.cons.inj heq).1
  | escaped => exact absurd (List.cons.inj heq).1 (by decide)
  | unicode => exact absurd (List.cons.inj heq).1 (by decide)

/-- Behind a string its closing quote is found, and its characters denote one thing each. -/
theorem AllDenote.unique (h : AllDenote s ds) (h' : AllDenote s' ds')
    (heq : s ++ 34 :: t = s' ++ 34 :: t') : s = s' ∧ ds = ds' ∧ t = t' := by
  -- character by character: one of the two ends where a quote stands, and so does the other
  induction h generalizing s' ds' with
  | nil =>
    cases h' with
    | nil => exact ⟨rfl, rfl, (List.cons.inj heq).2⟩
    | cons hc' =>
      rw [List.append_assoc] at heq
      exact absurd heq.symm hc'.ne_quote
  | cons hc _ ih =>
    cases h' with
    | nil =>
      rw [List.append_assoc] at heq
      exact absurd heq hc.ne_quote
    | cons hc' hs' =>
      rw [List.append_assoc, List.append_assoc] at heq
      obtain ⟨rfl, rfl, hrest⟩ := hc.unique hc' heq
      obtain ⟨rfl, rfl, rfl⟩ := ih hs' hrest
      exact ⟨rfl, rfl, rfl⟩

/-- A string ends at its own closing quote, whatever follows it. -/
theorem IsString.ends (h : IsString s) (h' : IsString s') (heq : s ++ t = s' ++ t') :
    s = s' ∧ t = t' := by
  obtain ⟨hbody⟩ := h
  obtain ⟨hbody'⟩ := h'
  obtain ⟨ds, hds⟩ := exists_allDenote hbody
  obtain ⟨ds', hds'⟩ := exists_allDenote hbody'
  simp only [List.cons_append, List.append_assoc, List.nil_append, List.cons.injEq, true_and] at heq
  obtain ⟨rfl, -, rfl⟩ := hds.unique hds' heq
  exact ⟨rfl, rfl⟩

/-- A string says one text. -/
theorem Decodes.unique (h : Decodes s t) (h' : Decodes s t') : t = t' := by
  obtain ⟨body, ds, rfl, hds, ht⟩ := h
  obtain ⟨body', ds', heq, hds', ht'⟩ := h'
  obtain ⟨-, rfl, -⟩ := hds.unique hds' (List.cons.inj heq).2
  exact Option.some.inj (ht.symm.trans ht')

/-- A string holds no control characters. -/
theorem IsString.printable (h : IsString s) : ∀ b ∈ s, 32 ≤ b := by
  have hcharacter {c : Text} (hc : Character c) : ∀ b ∈ c, 32 ≤ b := by
    cases hc with
    | plain hcontrol => exact List.forall_mem_singleton.2 hcontrol
    | @escaped b hb =>
      have hletters : (utf8 "\"\\/bfnrt").all (32 ≤ ·) = true := by decide
      have hletter : 32 ≤ b := of_decide_eq_true (List.all_eq_true.1 hletters b hb)
      exact List.forall_mem_cons.2 ⟨by decide, List.forall_mem_singleton.2 hletter⟩
    | unicode _ hdigits =>
      have hdigit (d : UInt8) (hd : Text.isDigit 16 d = true) : 32 ≤ d := by
        -- the digits are among the letters and figures, none of which is below 32
        by_contra hlt
        have hnone : ∀ n < 32, Text.isDigit 16 (UInt8.ofNat n) = false := by decide
        have := hnone d.toNat (UInt8.lt_iff_toNat_lt.1 (UInt8.not_le.1 hlt))
        rw [UInt8.ofNat_toNat, hd] at this
        cases this
      refine List.forall_mem_cons.2 ⟨by decide, List.forall_mem_cons.2 ⟨by decide, ?_⟩⟩
      exact fun d hd => hdigit d (hdigits d hd)
  obtain ⟨hbody⟩ := h
  rw [List.forall_mem_append, List.forall_mem_cons, List.forall_mem_singleton]
  refine ⟨⟨by decide, ?_⟩, by decide⟩
  induction hbody with
  | nil => exact nofun
  | cons hc _ ih => exact List.forall_mem_append.2 ⟨hcharacter hc, ih⟩

/-! ### What is written -/

theorem control_value : ∀ n < 32, Text.digitsValue 16 (Text.ofNatHex 4 n) = n := by decide +kernel

theorem encodePoint_control : ∀ n < 32, encodePoint n = [UInt8.ofNat n] := by decide +kernel

/-- A byte stands for itself or is written by its number, and then it is a control character. -/
theorem denotes_escapeByte (b : UInt8) : Denotes (Text.escapeByte b) (.byte b) ∨
    b < 32 ∧ Denotes (Text.escapeByte b) (.codeUnit b.toNat) := by
  unfold Text.escapeByte
  -- in the order in which the writer tries them
  by_cases hquote : b = 34
  · rw [if_pos hquote, hquote]
    exact Or.inl (.escaped (by decide))
  rw [if_neg hquote]
  by_cases hslash : b = 92
  · rw [if_pos hslash, hslash]
    exact Or.inl (.escaped (by decide))
  rw [if_neg hslash]
  by_cases hfeed : b = 10
  · rw [if_pos hfeed, hfeed]
    exact Or.inl (.escaped (by decide))
  rw [if_neg hfeed]
  by_cases hreturn : b = 13
  · rw [if_pos hreturn, hreturn]
    exact Or.inl (.escaped (by decide))
  rw [if_neg hreturn]
  by_cases htab : b = 9
  · rw [if_pos htab, htab]
    exact Or.inl (.escaped (by decide))
  rw [if_neg htab]
  by_cases hcontrol : b < 32
  · rw [if_pos hcontrol]
    have hlt : b.toNat < 32 := UInt8.lt_iff_toNat_lt.1 hcontrol
    obtain ⟨hlength, hdigits⟩ := control_code b.toNat hlt
    have hunit := Denotes.unicode hlength hdigits
    rw [control_value b.toNat hlt] at hunit
    exact Or.inr ⟨hcontrol, hunit⟩
  · rw [if_neg hcontrol]
    exact Or.inl (.plain (UInt8.not_lt.1 hcontrol) hquote hslash)

theorem bytes?_control {b : UInt8} (hb : b < 32) (ds : List Denoted) :
    bytes? none (.codeUnit b.toNat :: ds) = (bytes? none ds).map (b :: ·) := by
  have hlt : b.toNat < 32 := UInt8.lt_iff_toNat_lt.1 hb
  have hhigh : ¬ High b.toNat := fun h => by have := h.1; omega
  have hlow : ¬ Low b.toNat := fun h => by have := h.1; omega
  rw [bytes?, if_neg hhigh, if_neg hlow, encodePoint_control b.toNat hlt, UInt8.ofNat_toNat]
  rfl

/-- What is written between quotes is read back. -/
theorem decodes_quote (s : Text) : Decodes (Text.quote s) s := by
  have hbody : ∃ ds, AllDenote (Text.escape s) ds ∧ bytes? none ds = some s := by
    induction s with
    | nil => exact ⟨[], .nil, rfl⟩
    | cons b s ih =>
      obtain ⟨ds, hds, hs⟩ := ih
      -- only a control character is written by its number, and there is one byte for it
      rcases denotes_escapeByte b with hb | ⟨hcontrol, hb⟩
      · refine ⟨.byte b :: ds, .cons hb hds, ?_⟩
        rw [bytes?, hs, Option.map_some]
      · refine ⟨.codeUnit b.toNat :: ds, .cons hb hds, ?_⟩
        rw [bytes?_control hcontrol, hs, Option.map_some]
  obtain ⟨ds, hds, hs⟩ := hbody
  exact ⟨Text.escape s, ds, rfl, hds, hs⟩

/-- A quoted text says itself and nothing else. -/
theorem decodes_quote_iff : Decodes (Text.quote s) t ↔ t = s := by
  constructor
  · intro h
    exact h.unique (decodes_quote s)
  · rintro rfl
    exact decodes_quote t

/-- No two texts are escaped in the same way. -/
theorem escape_injective : Function.Injective Text.escape := by
  intro s t h
  have hquote : Text.quote s = Text.quote t := by rw [Text.quote, Text.quote, h]
  have hs := decodes_quote s
  rw [hquote] at hs
  exact decodes_quote_iff.1 hs

end GpuTelemetry.Json
