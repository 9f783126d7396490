import GpuTelemetry.Sysfs.ClockTable
import GpuTelemetry.Proofs.Text.Spelling
import Mathlib.Data.List.Basic

namespace GpuTelemetry.Sysfs

open Text (Begins wordValue)

def Numbered (line : Text) (negative : Bool) (n : ℕ) : Prop :=
  ∃ before after : Text, line = before ++ 58 :: after ∧ 58 ∉ before ∧ Begins after negative n

def Level (line : Text) (f : ℕ) : Prop := Numbered line false f

/-- The frequency that is read from a line: its number as a word, cut to 32 bits. -/
def ReadAs (line : Text) (f : ℕ) : Prop :=
  ∃ negative n, Numbered line negative n ∧ f = wordValue negative n % 2 ^ 32

/-- If the line has a number, that is a number of 32 bits without a minus sign. -/
def Plain (line : Text) : Prop := ∀ negative n, Numbered line negative n → negative = false ∧ n < 2 ^ 32

def Largest (frequency : Text → ℕ → Prop) (lines : List Text) : Option ℕ → Prop
  | some m => (∃ line ∈ lines, frequency line m) ∧ ∀ line ∈ lines, ∀ f, frequency line f → f ≤ m
  | none => ∀ line ∈ lines, ∀ f, ¬ frequency line f

/-- The frequency of the first line that has one and an asterisk, if there is such a line. -/
def FirstActive (frequency : Text → ℕ → Prop) (lines : List Text) : Option ℕ → Prop
  | some f => ∃ before line after, lines = before ++ line :: after ∧ 42 ∈ line ∧ frequency line f ∧
      ∀ l ∈ before, 42 ∈ l → ∀ g, ¬ frequency l g
  | none => ∀ line ∈ lines, 42 ∈ line → ∀ f, ¬ frequency line f

variable {line table : Text} {lines : List Text} {negative : Bool} {n f : ℕ} {w : UInt32}

/-! ### Lines -/

theorem afterColon_append {before after : Text} (h : 58 ∉ before) :
    afterColon (before ++ 58 :: after) = after := by
  have hall : ∀ b ∈ before, (b != 58) = true := by
    intro b hb
    rw [bne_iff_ne]
    rintro rfl
    exact h hb
  have hstop : ∀ b ∈ (58 :: after).head?, (b != 58) = false := by simp
  rw [afterColon, Text.dropWhile_append_eq hall hstop]
  rfl

theorem numbered_iff : Numbered line negative n ↔
    hasColon line = true ∧ Begins (afterColon line) negative n := by
  constructor
  · rintro ⟨before, after, rfl, hbefore, hbegins⟩
    rw [afterColon_append hbefore]
    exact ⟨by simp [hasColon], hbegins⟩
  · rintro ⟨hcolon, hbegins⟩
    obtain ⟨before, after, rfl, hbefore⟩ :=
      List.eq_append_cons_of_mem (List.contains_iff_mem.1 hcolon)
    rw [afterColon_append hbefore] at hbegins
    exact ⟨before, after, rfl, hbefore, hbegins⟩

/-- The numeral that is read from a line is the one behind its colon. -/
theorem readAs_iff : ReadAs line f ↔ ∃ w, levelMHz? line = some w ∧ w.toNat = f := by
  have hread (m : Text.Numeral) : m.word.toUInt32.toNat = wordValue m.negative m.magnitude % 2 ^ 32 := by
    rw [UInt64.toNat_toUInt32, Text.toNat_word m.negative m.magnitude m.rest]
  have hnumeral (negative : Bool) (n : ℕ) : Begins (afterColon line) negative n ↔
      ∃ rest, Text.readNumeral 10 (Text.beforeNul (Text.trim (afterColon line))) =
        some ⟨negative, n, rest⟩ := by
    rw [← Text.begins_iff, Text.begins_beforeNul_trim]
  simp only [ReadAs, numbered_iff, hnumeral]
  unfold levelMHz?
  constructor
  · rintro ⟨negative, n, ⟨hcolon, rest, hnum⟩, rfl⟩
    rw [if_pos hcolon, hnum]
    exact ⟨_, rfl, hread _⟩
  · rintro ⟨w, hw, rfl⟩
    split at hw
    · rename_i hcolon
      obtain ⟨m, hnum, rfl⟩ := Option.map_eq_some_iff.1 hw
      exact ⟨m.negative, m.magnitude, ⟨hcolon, m.rest, hnum⟩, hread m⟩
    · cases hw

theorem levelMHz?_eq_none : levelMHz? line = none ↔ ∀ f, ¬ ReadAs line f := by
  simp only [readAs_iff]
  constructor
  · rintro hnone f ⟨w, hw, -⟩
    rw [hnone] at hw
    cases hw
  · intro hno
    rw [Option.eq_none_iff_forall_ne_some]
    intro w hw
    exact hno w.toNat ⟨w, hw, rfl⟩

/-- Of a plain line the number is read as it is. -/
theorem Plain.readAs_iff_level (h : Plain line) : ReadAs line f ↔ Level line f := by
  have hsame {n : ℕ} (hn : n < 2 ^ 32) : wordValue false n % 2 ^ 32 = n := by
    rw [Text.wordValue_of_lt (by omega), Nat.mod_eq_of_lt hn]
  constructor
  · rintro ⟨negative, n, hnumbered, rfl⟩
    obtain ⟨rfl, hlt⟩ := h negative n hnumbered
    rw [hsame hlt]
    exact hnumbered
  · intro hlevel
    exact ⟨false, f, hlevel, (hsame (h false f hlevel).2).symm⟩

/-- A line has one number at most, and it is found by reading. -/
theorem Numbered.eq_of_read {minus : Bool} {m : ℕ} {rest : Text} (h : Numbered line negative n)
    (hread : Text.readNumeral 10 (afterColon line) = some ⟨minus, m, rest⟩) :
    negative = minus ∧ n = m := by
  obtain ⟨rest', hrest'⟩ := Text.begins_iff.1 (numbered_iff.1 h).2
  rw [hread] at hrest'
  cases hrest'
  exact ⟨rfl, rfl⟩

theorem plain_of_read (h : (Text.readNumeral 10 (afterColon line)).all
    (fun m => m.negative = false ∧ m.magnitude < 2 ^ 32) = true) : Plain line := by
  intro negative n hnumbered
  obtain ⟨rest, hread⟩ := Text.begins_iff.1 (numbered_iff.1 hnumbered).2
  rw [hread] at h
  simpa using h

/-! ### Tables -/

/-- The largest so far ends as the largest of all. -/
theorem foldl_larger (best : UInt32) (fs : List UInt32) :
    ∃ m ∈ best :: fs, fs.foldl larger (some best) = some m ∧ ∀ f ∈ best :: fs, f ≤ m := by
  induction fs generalizing best with
  | nil => exact ⟨best, by simp⟩
  | cons f fs ih =>
    rw [List.foldl_cons]
    -- the best so far gives way to a larger one only
    by_cases hf : f > best
    · obtain ⟨m, hm, hfold, hle⟩ := ih f
      rw [List.forall_mem_cons] at hle
      refine ⟨m, List.mem_cons_of_mem _ hm, by simpa [larger, hf] using hfold, ?_⟩
      rw [List.forall_mem_cons, List.forall_mem_cons]
      exact ⟨UInt32.le_trans (UInt32.le_of_lt hf) hle.1, hle⟩
    · obtain ⟨m, hm, hfold, hle⟩ := ih best
      rw [List.forall_mem_cons] at hle
      refine ⟨m, ?_, by simpa [larger, hf] using hfold, ?_⟩
      · rcases List.mem_cons.1 hm with rfl | hm
        · exact List.mem_cons_self
        · exact List.mem_cons_of_mem _ (List.mem_cons_of_mem _ hm)
      · rw [List.forall_mem_cons, List.forall_mem_cons]
        exact ⟨hle.1, UInt32.le_trans (UInt32.not_lt.1 hf) hle.1, hle.2⟩

/-- The largest of the frequencies read is told. -/
theorem largest_maxMHz (table : Text) :
    Largest ReadAs (Text.lines table) ((maxMHz table).map UInt32.toNat) := by
  unfold maxMHz
  cases hfs : (Text.lines table).filterMap levelMHz? with
  | nil =>
    intro line hline
    exact levelMHz?_eq_none.1 (List.filterMap_eq_nil_iff.1 hfs line hline)
  | cons best fs =>
    have hmem (w : UInt32) : w ∈ best :: fs ↔ ∃ line ∈ Text.lines table, levelMHz? line = some w := by
      rw [← hfs, List.mem_filterMap]
    obtain ⟨m, hm, hfold, hle⟩ := foldl_larger best fs
    have hmax : (best :: fs).foldl larger none = some m := hfold
    rw [hmax]
    constructor
    · obtain ⟨line, hline, hw⟩ := (hmem m).1 hm
      exact ⟨line, hline, readAs_iff.2 ⟨m, hw, rfl⟩⟩
    · intro line hline f hf
      obtain ⟨w, hw, rfl⟩ := readAs_iff.1 hf
      exact UInt32.le_iff_toNat_le.1 (hle w ((hmem w).2 ⟨line, hline, hw⟩))

/-- Of the frequencies in use the first one is told. -/
theorem firstActive_activeMHz (table : Text) :
    FirstActive ReadAs (Text.lines table) ((activeMHz table).map UInt32.toNat) := by
  have hactive (line : Text) : isActiveLevel line = true ↔ 42 ∈ line := List.contains_iff_mem
  have hnone {line : Text} (h : (if isActiveLevel line then levelMHz? line else none) = none)
      (hstar : 42 ∈ line) : ∀ f, ¬ ReadAs line f := by
    rw [if_pos ((hactive line).2 hstar)] at h
    exact levelMHz?_eq_none.1 h
  cases hfirst : activeMHz table with
  | none =>
    intro line hline hstar
    exact hnone (List.findSome?_eq_none_iff.1 hfirst line hline) hstar
  | some w =>
    obtain ⟨before, line, after, hlines, hw, hbefore⟩ := List.findSome?_eq_some_iff.1 hfirst
    have hstar : isActiveLevel line = true := by
      by_contra hno
      rw [if_neg hno] at hw
      cases hw
    rw [if_pos hstar] at hw
    exact ⟨before, line, after, hlines, (hactive line).1 hstar, readAs_iff.2 ⟨w, hw, rfl⟩,
      fun l hl hlstar => hnone (hbefore l hl) hlstar⟩

theorem Largest.ne_some {frequency : Text → ℕ → Prop} {o : Option ℕ}
    (h : Largest frequency lines o) (hno : ∀ line ∈ lines, ¬ frequency line f) : o ≠ some f := by
  rintro rfl
  obtain ⟨⟨line, hline, hf⟩, -⟩ := h
  exact hno line hline hf

theorem FirstActive.ne_some {frequency : Text → ℕ → Prop} {o : Option ℕ}
    (h : FirstActive frequency lines o) (hno : ∀ line ∈ lines, ¬ frequency line f) : o ≠ some f := by
  rintro rfl
  obtain ⟨before, line, after, rfl, -, hf, -⟩ := h
  exact hno line (by simp) hf

theorem Largest.congr {frequency other : Text → ℕ → Prop} {o : Option ℕ}
    (h : Largest frequency lines o)
    (heq : ∀ line ∈ lines, ∀ f, frequency line f ↔ other line f) : Largest other lines o := by
  cases o with
  | none => exact fun line hline f hf => h line hline f ((heq line hline f).2 hf)
  | some m =>
    obtain ⟨⟨line, hline, hm⟩, hle⟩ := h
    exact ⟨⟨line, hline, (heq line hline m).1 hm⟩,
      fun l hl f hf => hle l hl f ((heq l hl f).2 hf)⟩

theorem FirstActive.congr {frequency other : Text → ℕ → Prop} {o : Option ℕ}
    (h : FirstActive frequency lines o)
    (heq : ∀ line ∈ lines, 42 ∈ line → ∀ f, frequency line f ↔ other line f) :
    FirstActive other lines o := by
  cases o with
  | none => exact fun line hline hstar f hf => h line hline hstar f ((heq line hline hstar f).2 hf)
  | some m =>
    obtain ⟨before, line, after, rfl, hstar, hm, hbefore⟩ := h
    refine ⟨before, line, after, rfl, hstar, (heq line (by simp) hstar m).1 hm, ?_⟩
    intro l hl hlstar g hg
    exact hbefore l hl hlstar g ((heq l (by simp [hl]) hlstar g).2 hg)

/-- **What is read from a table of clock levels.** The maximum is the largest of the frequencies read from
the lines and the active frequency is the first of those read from lines with an asterisk. Where all
numbers are unsigned and fit into 32 bits, these are the largest frequency and the first active frequency
of the levels; for the active frequency only the numbers of lines with an asterisk matter. -/
theorem clocks_of_table (table : Text) :
    Largest ReadAs (Text.lines table) ((maxMHz table).map UInt32.toNat) ∧
    FirstActive ReadAs (Text.lines table) ((activeMHz table).map UInt32.toNat) ∧
    ((∀ line ∈ Text.lines table, Plain line) →
      Largest Level (Text.lines table) ((maxMHz table).map UInt32.toNat)) ∧
    ((∀ line ∈ Text.lines table, 42 ∈ line → Plain line) →
      FirstActive Level (Text.lines table) ((activeMHz table).map UInt32.toNat)) := by
  have hmax := largest_maxMHz table
  have hactive := firstActive_activeMHz table
  refine ⟨hmax, hactive, fun hplain => ?_, fun hplain => ?_⟩
  · exact hmax.congr fun line hline f => (hplain line hline).readAs_iff_level
  · exact hactive.congr fun line hline hstar f => (hplain line hline hstar).readAs_iff_level

def threeLevels : Text := utf8 "0: 500Mhz\n1:\t+1500Mhz *\n2: 2500Mhz\n*: n/a\n"

/-- Three levels, of which the second is in use, and a line that is none. -/
theorem clocks_of_table_of_three :
    (∀ line ∈ Text.lines threeLevels, Plain line) ∧
    maxMHz threeLevels = some 2500 ∧ Largest Level (Text.lines threeLevels) (some 2500) ∧
    activeMHz threeLevels = some 1500 ∧ FirstActive Level (Text.lines threeLevels) (some 1500) := by
  have hplain : ∀ line ∈ Text.lines threeLevels, Plain line := by
    have hread : ∀ line ∈ Text.lines threeLevels,
        (Text.readNumeral 10 (afterColon line)).all
          (fun m => m.negative = false ∧ m.magnitude < 2 ^ 32) = true := by decide
    exact fun line hline => plain_of_read (hread line hline)
  have hmax : maxMHz threeLevels = some 2500 := by decide
  have hactive : activeMHz threeLevels = some 1500 := by decide
  obtain ⟨-, -, hlargest, hfirst⟩ := clocks_of_table threeLevels
  have hlevels := hlargest hplain
  have hlevel := hfirst fun line hline _ => hplain line hline
  rw [hmax] at hlevels
  rw [hactive] at hlevel
  exact ⟨hplain, hmax, hlevels, hactive, hlevel⟩

def minusTable : Text := utf8 "0: -5Mhz *\n"

def largeTable : Text := utf8 "0: 4294967296Mhz *\n"

/-- From a number with a minus sign a frequency is read, and from one that is too large another one. -/
theorem other_frequency_read :
    ¬ Largest Level (Text.lines minusTable) ((maxMHz minusTable).map UInt32.toNat) ∧
    ¬ FirstActive Level (Text.lines minusTable) ((activeMHz minusTable).map UInt32.toNat) ∧
    ¬ Largest Level (Text.lines largeTable) ((maxMHz largeTable).map UInt32.toNat) ∧
    ¬ FirstActive Level (Text.lines largeTable) ((activeMHz largeTable).map UInt32.toNat) := by
  have hminus : ∀ line ∈ Text.lines minusTable, ¬ Level line 4294967291 := by
    intro line hline hlevel
    obtain rfl : line = utf8 "0: -5Mhz *" := List.mem_singleton.1 hline
    have hread : Text.readNumeral 10 (afterColon (utf8 "0: -5Mhz *")) = some ⟨true, 5, utf8 "Mhz *"⟩ := by
      decide
    exact absurd (hlevel.eq_of_read hread).1 (by decide)
  have hlarge : ∀ line ∈ Text.lines largeTable, ¬ Level line 0 := by
    intro line hline hlevel
    obtain rfl : line = utf8 "0: 4294967296Mhz *" := List.mem_singleton.1 hline
    have hread : Text.readNumeral 10 (afterColon (utf8 "0: 4294967296Mhz *")) =
        some ⟨false, 4294967296, utf8 "Mhz *"⟩ := by decide
    exact absurd (hlevel.eq_of_read hread).2 (by decide)
  have hread : maxMHz minusTable = some 4294967291 ∧ activeMHz minusTable = some 4294967291 ∧
      maxMHz largeTable = some 0 ∧ activeMHz largeTable = some 0 := by decide
  obtain ⟨hminusMax, hminusActive, hlargeMax, hlargeActive⟩ := hread
  rw [hminusMax, hminusActive, hlargeMax, hlargeActive]
  exact ⟨fun h => h.ne_some hminus rfl, fun h => h.ne_some hminus rfl,
    fun h => h.ne_some hlarge rfl, fun h => h.ne_some hlarge rfl⟩

end GpuTelemetry.Sysfs
