import Mathlib.Data.List.Nodup

namespace GpuTelemetry

variable {κ α : Type} [BEq κ] [LawfulBEq κ] [DecidableEq κ] {k j : κ} {v : α} {xs ys : List (κ × α)}

theorem lookup_cons_eq {x : κ × α} :
    (x :: xs).lookup j = if j = x.1 then some x.2 else xs.lookup j := by
  by_cases h : j = x.1
  · rw [if_pos h, List.lookup_cons, beq_iff_eq.2 h]
  · rw [if_neg h, List.lookup_cons, beq_eq_false_iff_ne.2 h]

/-- A value that replaces one under a key is found there, and all others are as they were. -/
theorem lookup_replace : (xs.map fun x => if x.1 = k then (k, v) else x).lookup j =
    if j = k then (xs.lookup k).map (fun _ => v) else xs.lookup j := by
  induction xs with
  | nil => simp
  | cons x xs ih =>
    rw [List.map_cons, lookup_cons_eq, ih, lookup_cons_eq, lookup_cons_eq]
    by_cases hx : x.1 = k
    · rw [if_pos hx, hx]
      by_cases hj : j = k
      · rw [if_pos hj, if_pos hj, if_pos rfl, Option.map_some]
      · rw [if_neg hj, if_neg hj, if_neg hj, if_neg hj]
    · rw [if_neg hx, if_neg (Ne.symm hx)]
      by_cases hj : j = k
      · rw [if_pos hj, if_pos hj, hj, if_neg (Ne.symm hx)]
      · rw [if_neg hj, if_neg hj]

omit [BEq κ] [LawfulBEq κ] in
theorem map_fst_replace :
    (xs.map fun x => if x.1 = k then (k, v) else x).map (·.1) = xs.map (·.1) := by
  rw [List.map_map]
  apply List.map_congr_left
  intro x _
  by_cases hx : x.1 = k <;> simp [hx]

/-- If no key is there twice, the order makes no difference. -/
theorem lookup_perm (h : xs.Perm ys) (hnodup : (xs.map (·.1)).Nodup) : ys.lookup k = xs.lookup k := by
  induction h with
  | nil => rfl
  | cons x _ ih =>
    rw [List.map_cons, List.nodup_cons] at hnodup
    rw [lookup_cons_eq, lookup_cons_eq, ih hnodup.2]
  | swap a b xs =>
    rw [List.map_cons, List.map_cons, List.nodup_cons, List.mem_cons, not_or] at hnodup
    -- of the two that change places at most one has the key
    have hne : b.1 ≠ a.1 := hnodup.1.1
    simp only [lookup_cons_eq]
    split
    · rename_i ha
      rw [if_neg fun hb => hne (hb.symm.trans ha)]
    · rfl
  | trans h _ ih ih' => exact (ih' ((h.map _).nodup_iff.1 hnodup)).trans (ih hnodup)

end GpuTelemetry
