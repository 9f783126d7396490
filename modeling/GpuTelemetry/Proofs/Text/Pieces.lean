import GpuTelemetry.Proofs.Text.Line
import Mathlib.Data.List.Forall2

namespace GpuTelemetry.Text

def withReturns (s : Text) : Text := s.flatMap fun b => if b = 10 then [13, 10] else [b]

variable {d : UInt8} {s t : Text}

/-! ### Pieces -/

/-- Cutting at a byte is `List.splitOn`. -/
theorem pieces_eq_splitOn (d : UInt8) (s : Text) : pieces d s = s.splitOn d := by
  induction s with
  | nil => rw [pieces, List.splitOn_nil]
  | cons b r ih =>
    obtain ⟨p, ps, hr⟩ := List.exists_cons_of_ne_nil (List.splitOn_ne_nil d r)
    rw [pieces, ih, hr, List.splitOn_cons_eq_if_modifyHead, hr, List.modifyHead_cons]
    simp only [beq_iff_eq]

theorem pieces_cons_self (d : UInt8) (s : Text) : pieces d (d :: s) = [] :: pieces d s := if_pos rfl

theorem pieces_cons_of_ne {b : UInt8} (h : b ≠ d) (s : Text) :
    ∃ p ps, pieces d s = p :: ps ∧ pieces d (b :: s) = (b :: p) :: ps := by
  obtain ⟨p, ps, hs⟩ := List.exists_cons_of_ne_nil (List.splitOn_ne_nil d s)
  refine ⟨p, ps, (pieces_eq_splitOn d s).trans hs, ?_⟩
  rw [pieces, if_neg h, pieces_eq_splitOn, hs]

/-- Two texts with the byte between them have the pieces of both. -/
theorem pieces_append (d : UInt8) (s t : Text) :
    pieces d (s ++ d :: t) = pieces d s ++ pieces d t := by
  simp only [pieces_eq_splitOn, List.splitOn_append_cons_self]

theorem pieces_of_not_mem (h : d ∉ s) : pieces d s = [s] := by
  rw [pieces_eq_splitOn, List.splitOn_eq_singleton h]

/-- What follows a text without the byte goes to its last piece. -/
theorem pieces_append_of_not_mem (ht : d ∉ t) (s : Text) : ∃ before last,
    pieces d s = before ++ [last] ∧ pieces d (s ++ t) = before ++ [last ++ t] := by
  induction s with
  | nil => exact ⟨[], [], rfl, pieces_of_not_mem ht⟩
  | cons b r ih =>
    obtain ⟨before, last, hr, hrt⟩ := ih
    rw [List.cons_append]
    rcases eq_or_ne b d with rfl | hb
    · refine ⟨[] :: before, last, ?_, ?_⟩
      · rw [pieces_cons_self, hr, List.cons_append]
      · rw [pieces_cons_self, hrt, List.cons_append]
    · obtain ⟨p, ps, hp, hcons⟩ := pieces_cons_of_ne hb r
      obtain ⟨q, qs, hq, hcons'⟩ := pieces_cons_of_ne hb (r ++ t)
      rw [hr] at hp
      rw [hrt] at hq
      -- the byte in front belongs to the last piece only if that is the first one too
      cases before with
      | nil =>
        obtain ⟨rfl, rfl⟩ := List.cons.inj hp
        obtain ⟨rfl, rfl⟩ := List.cons.inj hq
        exact ⟨[], b :: last, hcons, hcons'⟩
      | cons first before =>
        obtain ⟨rfl, rfl⟩ := List.cons.inj hp
        obtain ⟨rfl, rfl⟩ := List.cons.inj hq
        exact ⟨(b :: first) :: before, last, hcons, hcons'⟩

/-! ### Fields -/

theorem trim_append_blanks (ht : ∀ b ∈ t, isBlank b = true) (s : Text) : trim (s ++ t) = trim s := by
  obtain ⟨⟨left, right, hs, hblank⟩, hhead, hlast⟩ := stripped_trim s
  rw [List.forall_mem_append] at hblank
  apply trim_of_stripped
  refine ⟨⟨left, right ++ t, ?_, ?_⟩, hhead, hlast⟩
  · rw [← List.append_assoc, ← List.append_assoc, List.append_assoc left, ← hs]
  · rw [List.forall_mem_append, List.forall_mem_append]
    exact ⟨hblank.1, hblank.2, ht⟩

/-- Blanks behind a text make no difference to its fields. -/
theorem fields_append_blanks (ht : ∀ b ∈ t, isBlank b = true) (hd : d ∉ t) (s : Text) :
    fields d (s ++ t) = fields d s := by
  obtain ⟨before, last, hs, hst⟩ := pieces_append_of_not_mem hd s
  rw [fields, fields, hs, hst, List.map_append, List.map_append, List.map_singleton,
    List.map_singleton, trim_append_blanks ht]

/-! ### Lines -/

/-- Lines are pieces at line feeds, without an empty one behind the last line feed. -/
theorem pieces_eq_lines (s : Text) : pieces 10 s = lines s ∨ pieces 10 s = lines s ++ [[]] := by
  unfold lines
  dsimp only
  split
  · rename_i hlast
    obtain ⟨before, hs⟩ := List.getLast?_eq_some_iff.1 hlast
    rw [hs, List.dropLast_concat]
    exact Or.inr rfl
  · exact Or.inl rfl

/-- Nothing is lost by leaving out an empty line at the end if nothing is made of empty lines. -/
theorem filterMap_lines {α : Type} {f : Text → Option α} (h : f [] = none) (s : Text) :
    (lines s).filterMap f = (pieces 10 s).filterMap f := by
  rcases pieces_eq_lines s with hs | hs
  · rw [hs]
  · rw [hs, List.filterMap_append, List.filterMap_cons_none h, List.filterMap_nil, List.append_nil]

/-- The carriage returns end up behind the lines. -/
theorem pieces_withReturns (s : Text) :
    List.Forall₂ (fun line line' => line' = line ∨ line' = line ++ [13])
      (pieces 10 s) (pieces 10 (withReturns s)) := by
  induction s with
  | nil => exact List.Forall₂.cons (Or.inl rfl) List.Forall₂.nil
  | cons b r ih =>
    rcases eq_or_ne b 10 with rfl | hb
    · -- an empty line becomes one of a return alone
      have hreturn : pieces 10 (withReturns (10 :: r)) = [13] :: pieces 10 (withReturns r) :=
        pieces_append 10 [13] (withReturns r)
      rw [hreturn, pieces_cons_self]
      exact ih.cons (Or.inr rfl)
    · have hsame : withReturns (b :: r) = b :: withReturns r := by simp [withReturns, hb]
      obtain ⟨p, ps, hp, hcons⟩ := pieces_cons_of_ne hb r
      obtain ⟨q, qs, hq, hcons'⟩ := pieces_cons_of_ne hb (withReturns r)
      rw [hp, hq] at ih
      rw [hsame, hcons, hcons']
      obtain ⟨hhead, htail⟩ := List.forall₂_cons.1 ih
      refine htail.cons ?_
      rcases hhead with rfl | rfl
      · exact Or.inl rfl
      · exact Or.inr rfl

end GpuTelemetry.Text
