import GpuTelemetry.Text.Basic
import Mathlib.Data.List.TakeWhile

namespace GpuTelemetry.Text

/-- `t` is what stands in `s` before the first `d`, or all of `s` if there is none. -/
structure Before (d : UInt8) (s t : Text) : Prop where
  not_mem : d ∉ t
  ends : s = t ∨ ∃ rest, s = t ++ d :: rest

structure Stripped (s m : Text) : Prop where
  blanks : ∃ left right : Text, s = left ++ (m ++ right) ∧ ∀ b ∈ left ++ right, isBlank b = true
  head : ∀ b ∈ m.head?, isBlank b = false
  last : ∀ b ∈ m.getLast?, isBlank b = false

variable {s t m : Text} {p : UInt8 → Bool} {d : UInt8}

/-! ### Runs of bytes -/

theorem head?_dropWhile (p : UInt8 → Bool) (s : Text) : ∀ b ∈ (s.dropWhile p).head?, p b = false := by
  intro b hb
  have hnot := List.head?_dropWhile_not p s
  rwa [Option.mem_def.1 hb] at hnot

theorem takeWhile_append_eq (hs : ∀ b ∈ s, p b = true) (ht : ∀ b ∈ t.head?, p b = false) :
    (s ++ t).takeWhile p = s := by
  rw [List.takeWhile_append_of_pos hs]
  cases t with
  | nil => rw [List.takeWhile_nil, List.append_nil]
  | cons b t =>
    have hb : ¬ p b = true := by simp [ht b rfl]
    rw [List.takeWhile_cons_of_neg hb, List.append_nil]

/-- A run ends where the next byte does not belong to it. -/
theorem dropWhile_append_eq (hs : ∀ b ∈ s, p b = true) (ht : ∀ b ∈ t.head?, p b = false) :
    (s ++ t).dropWhile p = t := by
  rw [List.dropWhile_append_of_pos hs]
  cases t with
  | nil => rfl
  | cons b t =>
    have hb : ¬ p b = true := by simp [ht b rfl]
    exact List.dropWhile_cons_of_neg hb

/-! ### Up to a byte -/

/-- What stands before the first of a byte is all that comes before it. -/
theorem before_iff : Before d s t ↔ s.takeWhile (· != d) = t := by
  constructor
  · rintro ⟨hnot, hends⟩
    have hall : ∀ b ∈ t, (b != d) = true := by
      intro b hb
      rw [bne_iff_ne]
      rintro rfl
      exact hnot hb
    rcases hends with rfl | ⟨rest, rfl⟩
    · exact List.takeWhile_eq_self_iff.2 hall
    · exact takeWhile_append_eq hall (by simp)
  · rintro rfl
    constructor
    · intro hmem
      simpa using List.mem_takeWhile_imp hmem
    · have hsplit := List.takeWhile_append_dropWhile (p := (· != d)) (l := s)
      cases hrest : s.dropWhile (· != d) with
      | nil =>
        rw [hrest, List.append_nil] at hsplit
        exact Or.inl hsplit.symm
      | cons b rest =>
        -- what stopped the run is the byte itself
        obtain rfl : b = d := by simpa using head?_dropWhile (· != d) s b (by rw [hrest]; rfl)
        rw [hrest] at hsplit
        exact Or.inr ⟨rest, hsplit.symm⟩

theorem before_firstLine : Before 10 s t ↔ firstLine s = t := before_iff

theorem before_beforeNul : Before 0 s t ↔ beforeNul s = t := before_iff

theorem beforeNul_eq_self (h : 0 ∉ s) : beforeNul s = s :=
  before_beforeNul.1 ⟨h, Or.inl rfl⟩

theorem head?_beforeNul (h : beforeNul s ≠ []) : (beforeNul s).head? = s.head? := by
  obtain ⟨-, hends | ⟨rest, hends⟩⟩ := before_beforeNul.2 (rfl : beforeNul s = beforeNul s)
  · rw [← hends]
  · obtain ⟨b, r, hbr⟩ := List.exists_cons_of_ne_nil h
    rw [hbr] at hends
    rw [hbr, hends]
    rfl

/-- What is shown of a text begins as the text does, unless nothing is shown. -/
theorem head_beforeNul {P : UInt8 → Prop} (h : ∀ b ∈ s.head?, P b) :
    ∀ b ∈ (beforeNul s).head?, P b := by
  intro b hb
  have hne : beforeNul s ≠ [] := by
    intro hnil
    rw [hnil] at hb
    cases hb
  rw [head?_beforeNul hne] at hb
  exact h b hb

/-! ### Without blanks -/

theorem dropBlank_of_head (h : ∀ b ∈ s.head?, isBlank b = false) : dropBlank s = s := by
  have hnone : ∀ b ∈ ([] : Text), isBlank b = true := nofun
  exact dropWhile_append_eq hnone h

theorem trim_of_stripped (h : Stripped s m) : trim s = m := by
  obtain ⟨⟨left, right, rfl, hblank⟩, hhead, hlast⟩ := h
  rw [List.forall_mem_append] at hblank
  obtain ⟨hleft, hright⟩ := hblank
  rcases eq_or_ne m [] with rfl | hne
  · -- nothing but blanks on both sides
    have hnil : dropBlank (left ++ ([] ++ right)) = [] := by
      apply List.dropWhile_eq_nil_iff.2
      rw [List.nil_append, List.forall_mem_append]
      exact ⟨hleft, hright⟩
    rw [trim, hnil]
    rfl
  · have hdrop : dropBlank (left ++ (m ++ right)) = m ++ right := by
      apply dropWhile_append_eq hleft
      obtain ⟨b, r, rfl⟩ := List.exists_cons_of_ne_nil hne
      exact hhead
    have hback : dropBlank (m ++ right).reverse = m.reverse := by
      rw [List.reverse_append]
      apply dropWhile_append_eq
      · intro b hb
        exact hright b (List.mem_reverse.1 hb)
      · rwa [List.head?_reverse]
    rw [trim, hdrop, hback, List.reverse_reverse]

/-- Trimming takes away what stands at the ends and nothing else. -/
theorem stripped_trim (s : Text) : Stripped s (trim s) := by
  -- the run of blanks in front, the text itself and, seen from the end, the run behind it
  have hfront := List.takeWhile_append_dropWhile (p := isBlank) (l := s)
  have hback := List.takeWhile_append_dropWhile (p := isBlank) (l := (dropBlank s).reverse)
  have hrest : dropBlank s = trim s ++ ((dropBlank s).reverse.takeWhile isBlank).reverse := by
    rw [trim, ← List.reverse_append]
    exact (List.reverse_eq_iff.1 hback.symm)
  refine ⟨⟨s.takeWhile isBlank, ((dropBlank s).reverse.takeWhile isBlank).reverse, ?_, ?_⟩, ?_, ?_⟩
  · rw [← hrest]
    exact hfront.symm
  · rw [List.forall_mem_append]
    refine ⟨fun b hb => List.mem_takeWhile_imp hb, fun b hb => ?_⟩
    exact List.mem_takeWhile_imp (List.mem_reverse.1 hb)
  · intro b hb
    apply head?_dropWhile isBlank s b
    change b ∈ (dropBlank s).head?
    rw [hrest, List.head?_append, Option.mem_def.1 hb]
    rfl
  · intro b hb
    rw [trim, List.getLast?_reverse] at hb
    exact head?_dropWhile isBlank _ b hb

end GpuTelemetry.Text
