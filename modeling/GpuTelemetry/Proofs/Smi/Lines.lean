import GpuTelemetry.Smi.Table
import GpuTelemetry.Proofs.Text.Pieces

namespace GpuTelemetry.Smi

/-- The line has not eleven fields, or the first of them is no name. -/
def Malformed (line : Text) : Prop :=
  (Text.fields 44 line).length ≠ 11 ∨
    ∃ name ∈ (Text.fields 44 line).head?, name = [] ∨ name.head? = some 91

def Blank (line : Text) : Prop := ∀ b ∈ line, Text.isBlank b = true

variable {line : Text}

/-! ### One line -/

theorem text?_eq_none {field : Text} : text? field = none ↔ field = [] ∨ field.head? = some 91 := by
  cases field with
  | nil => simp [text?]
  | cons b r => simp [text?]

theorem exists_of_length_eleven {α : Type} {l : List α} (h : l.length = 11) :
    ∃ a₁ a₂ a₃ a₄ a₅ a₆ a₇ a₈ a₉ a₁₀ a₁₁, l = [a₁, a₂, a₃, a₄, a₅, a₆, a₇, a₈, a₉, a₁₀, a₁₁] := by
  match l, h with
  | [a₁, a₂, a₃, a₄, a₅, a₆, a₇, a₈, a₉, a₁₀, a₁₁], _ =>
    exact ⟨a₁, a₂, a₃, a₄, a₅, a₆, a₇, a₈, a₉, a₁₀, a₁₁, rfl⟩

/-- A line that is not malformed gives a device. -/
theorem parseLine_eq_none : parseLine line = none ↔ Malformed line := by
  by_cases hlength : (Text.fields 44 line).length = 11
  · obtain ⟨name, _, _, _, _, _, _, _, _, _, _, hfields⟩ := exists_of_length_eleven hlength
    rw [parseLine, Malformed, hfields]
    simp [text?_eq_none]
  · refine iff_of_true ?_ (Or.inl hlength)
    unfold parseLine
    split
    · rename_i hfields
      rw [hfields] at hlength
      exact absurd rfl hlength
    · rfl

/-- Blanks at the end of a line make no difference. -/
theorem parseLine_append_blanks {t : Text} (ht : Blank t) (hcomma : 44 ∉ t) :
    parseLine (line ++ t) = parseLine line := by
  rw [parseLine, parseLine, Text.fields_append_blanks ht hcomma]

theorem comma_not_mem_of_blank (h : Blank line) : 44 ∉ line := by
  intro hcomma
  have hblank := h 44 hcomma
  cases hblank

/-- A blank line has one field only. -/
theorem malformed_of_blank (h : Blank line) : Malformed line := by
  rw [← parseLine_eq_none, ← List.nil_append line, parseLine_append_blanks h (comma_not_mem_of_blank h)]
  rfl

theorem blank_of_trim (h : Text.trim line = []) : Blank line := by
  obtain ⟨⟨left, right, hline, hblank⟩, -, -⟩ := Text.stripped_trim line
  rw [h, List.nil_append] at hline
  rw [hline]
  exact hblank

/-! ### Tables -/

/-- That blank lines are passed over makes no difference, since they are malformed. -/
theorem parseTable_eq (s : Text) : parseTable s = (Text.pieces 10 s).filterMap parseLine := by
  have hskip : ∀ line, (if (Text.trim line).isEmpty then none else parseLine line) = parseLine line := by
    intro line
    split
    · rename_i hempty
      exact (parseLine_eq_none.2 (malformed_of_blank (blank_of_trim (List.isEmpty_iff.1 hempty)))).symm
    · rfl
  simp only [parseTable, hskip]
  exact Text.filterMap_lines rfl s

/-- The devices of two tables come one after the other. -/
theorem parseTable_append (a b : Text) : parseTable (a ++ 10 :: b) = parseTable a ++ parseTable b := by
  simp only [parseTable_eq, Text.pieces_append, List.filterMap_append]

theorem parseTable_line (h : 10 ∉ line) : parseTable line = (parseLine line).toList := by
  rw [parseTable_eq, Text.pieces_of_not_mem h]
  cases hline : parseLine line with
  | none => exact List.filterMap_cons_none hline
  | some r => exact List.filterMap_cons_some hline

/-- A table gives what its parts give. -/
theorem parseTable_sep (parts : List Text) :
    parseTable (Text.sep [10] parts) = parts.flatMap parseTable := by
  induction parts with
  | nil => rfl
  | cons part parts ih =>
    cases parts with
    | nil => simp [Text.sep]
    | cons next rest =>
      have hsep : Text.sep [10] (part :: next :: rest) = part ++ 10 :: Text.sep [10] (next :: rest) := by
        simp [Text.sep, List.intercalate_cons_cons]
      rw [hsep, parseTable_append, ih]
      exact List.flatMap_cons.symm

/-- Carriage returns at the ends of lines make no difference. -/
theorem parseTable_withReturns (s : Text) : parseTable (Text.withReturns s) = parseTable s := by
  have h := Text.pieces_withReturns s
  have hreturn : Blank [13] := List.forall_mem_singleton.2 rfl
  have hline : ∀ line line' : Text, line' = line ∨ line' = line ++ [13] →
      parseLine line' = parseLine line := by
    rintro line _ (rfl | rfl)
    · rfl
    · exact parseLine_append_blanks hreturn (by decide)
  rw [parseTable_eq, parseTable_eq]
  generalize Text.pieces 10 (Text.withReturns s) = lines', Text.pieces 10 s = lines at h
  induction h with
  | nil => rfl
  | cons hhead _ ih => rw [List.filterMap_cons, List.filterMap_cons, hline _ _ hhead, ih]

/-- **Lines are independent.** A line feed between two texts puts the devices of the one before those of
the other, a line gives its device or none, and none exactly if it is malformed; so a line that is blank or
malformed can be taken out of a table anywhere. Line feeds may have carriage returns before them. -/
theorem lines_independent :
    (∀ a b, parseTable (a ++ 10 :: b) = parseTable a ++ parseTable b) ∧
    (∀ line, 10 ∉ line →
      parseTable line = (parseLine line).toList ∧ (parseTable line = [] ↔ Malformed line)) ∧
    (∀ line, 10 ∉ line → Blank line ∨ Malformed line → ∀ before after,
      parseTable (Text.sep [10] (before ++ line :: after)) =
        parseTable (Text.sep [10] (before ++ after))) ∧
    ∀ s, parseTable (Text.withReturns s) = parseTable s := by
  have hnone {line : Text} (hline : 10 ∉ line) : parseTable line = [] ↔ Malformed line := by
    rw [parseTable_line hline, Option.toList_eq_nil_iff, parseLine_eq_none]
  refine ⟨parseTable_append, fun line hline => ⟨parseTable_line hline, hnone hline⟩, ?_,
    parseTable_withReturns⟩
  intro line hline hbad before after
  -- a blank line is one of those that are malformed
  have hmalformed : Malformed line := hbad.elim malformed_of_blank id
  rw [parseTable_sep, parseTable_sep, List.flatMap_append, List.flatMap_append, List.flatMap_cons,
    (hnone hline).2 hmalformed, List.nil_append]

def unnamedLine : Text := utf8 "[N/A],535.1,40,,,,,,,,\r"

/-- Between two lines with names stands one without a name. -/
theorem lines_independent_of_unnamed : 10 ∉ unnamedLine ∧ Malformed unnamedLine ∧
    parseTable unnamedLine = [] ∧
    parseTable (Text.sep [10] ([utf8 "A,,,,,,,,,,"] ++ unnamedLine :: [utf8 "B,,,,,,,,,,"])) =
      parseTable (Text.sep [10] ([utf8 "A,,,,,,,,,,"] ++ [utf8 "B,,,,,,,,,,"])) := by
  have hline : 10 ∉ unnamedLine := by decide
  have hmalformed : Malformed unnamedLine := Or.inr ⟨utf8 "[N/A]", by decide, by decide⟩
  obtain ⟨-, hlines, hout, -⟩ := lines_independent
  exact ⟨hline, hmalformed, (hlines _ hline).2.2 hmalformed, hout _ hline (Or.inr hmalformed) _ _⟩

end GpuTelemetry.Smi
