import Mathlib.Data.List.Basic

namespace GpuTelemetry

variable {α γ κ σ : Type}

def latest? (tell : α → Option γ) (xs : List α) : Option γ := (xs.filterMap tell).getLast?

/-- The elements of each key are the same in the same order; those of different keys may have changed
places. -/
def Regrouped [DecidableEq κ] (key : α → κ) (xs ys : List α) : Prop :=
  ∀ k, (xs.filter fun x => key x = k) = ys.filter fun y => key y = k

variable {tell : α → Option γ} {xs ys before between after : List α} {x : α} {v : γ}

theorem latest?_append :
    latest? tell (xs ++ ys) = (latest? tell ys).or (latest? tell xs) := by
  rw [latest?, List.filterMap_append, List.getLast?_append, latest?, latest?]

theorem latest?_singleton : latest? tell [x] = tell x := by
  cases h : tell x <;> simp [latest?, h]

theorem latest?_cons : latest? tell (x :: xs) = (latest? tell xs).or (tell x) := by
  rw [← List.singleton_append, latest?_append, latest?_singleton]

theorem latest?_filterMap {δ : Type} (f : δ → Option α) (xs : List δ) :
    latest? tell (xs.filterMap f) = latest? (fun x => (f x).bind tell) xs := by
  rw [latest?, latest?, List.filterMap_filterMap]

theorem latest?_eq_none : latest? tell xs = none ↔ ∀ x ∈ xs, tell x = none := by
  rw [latest?, List.getLast?_eq_none_iff, List.filterMap_eq_nil_iff]

/-- The last value is that of an element with none behind it that tells one. -/
theorem latest?_eq_some : latest? tell xs = some v ↔
    ∃ before x after, xs = before ++ x :: after ∧ tell x = some v ∧ ∀ y ∈ after, tell y = none := by
  constructor
  · intro h
    obtain ⟨vs, hvs⟩ := List.getLast?_eq_some_iff.1 h
    obtain ⟨front, back, rfl, -, hback⟩ := List.filterMap_eq_append_iff.1 hvs
    obtain ⟨silent, x, after, rfl, -, hx, hafter⟩ := List.filterMap_eq_cons_iff.1 hback
    refine ⟨front ++ silent, x, after, ?_, hx, List.filterMap_eq_nil_iff.1 hafter⟩
    rw [List.append_assoc]
  · rintro ⟨before, x, after, rfl, hx, hafter⟩
    rw [latest?_append, latest?_cons, latest?_eq_none.2 hafter, hx]
    rfl

/-- A loop that keeps the last value it is told has the last one in the end, or what it had before. -/
theorem foldl_eq_latest? {step : σ → α → σ} (kept : σ → Option γ)
    (h : ∀ s x, kept (step s x) = (tell x).or (kept s)) (s : σ) (xs : List α) :
    kept (xs.foldl step s) = (latest? tell xs).or (kept s) := by
  induction xs generalizing s with
  | nil => rfl
  | cons x xs ih => rw [List.foldl_cons, ih, h, latest?_cons, Option.or_assoc]

/-- An element need not be there if it tells nothing or a later one tells a value too. -/
theorem latest?_skip (h : tell x = none ∨ ∃ y ∈ after, tell y ≠ none) :
    latest? tell (before ++ x :: after) = latest? tell (before ++ after) := by
  rw [latest?_append, latest?_append, latest?_cons]
  rcases h with hx | ⟨y, hy, htell⟩
  · rw [hx, Option.or_none]
  · obtain ⟨v, hv⟩ : ∃ v, latest? tell after = some v := by
      apply Option.ne_none_iff_exists'.1
      exact fun hnone => htell (latest?_eq_none.1 hnone y hy)
    rw [hv]
    rfl

/-- An element may be repeated if nothing else was told since. -/
theorem latest?_repeat (h : ∀ y ∈ between, tell y = none ∨ tell y = tell x) :
    latest? tell (before ++ x :: between ++ x :: after) =
      latest? tell (before ++ x :: between ++ after) := by
  -- what was told since, if anything, is what `x` tells
  have hsince : latest? tell (x :: between) = tell x := by
    rw [latest?_cons]
    cases hlast : latest? tell between with
    | none => rfl
    | some v =>
      obtain ⟨front, y, back, rfl, hy, -⟩ := latest?_eq_some.1 hlast
      rcases h y (by simp) with hnone | hsame
      · rw [hnone] at hy
        cases hy
      · rw [← hsame, hy]
        rfl
  have htwice (o : Option γ) : (tell x).or ((tell x).or o) = (tell x).or o := by
    cases tell x <;> rfl
  have hagain : latest? tell (x :: after) = (latest? tell after).or (tell x) := latest?_cons
  simp only [latest?_append, hagain, hsince, Option.or_assoc, htwice]

/-- Neighbours of different keys may change places. -/
theorem Regrouped.swap [DecidableEq κ] {key : α → κ} {y : α} (h : key x ≠ key y)
    (before after : List α) : Regrouped key (before ++ x :: y :: after) (before ++ y :: x :: after) := by
  intro k
  by_cases hx : key x = k
  · have hy : key y ≠ k := fun hy => h (hx.trans hy.symm)
    simp [hx, hy]
  · simp [hx, List.filter_cons]

/-- Only the elements of one key matter if all others tell nothing. -/
theorem Regrouped.latest?_eq [DecidableEq κ] {key : α → κ} (h : Regrouped key xs ys) {k : κ}
    (htell : ∀ x, key x ≠ k → tell x = none) : latest? tell xs = latest? tell ys := by
  -- leaving out what tells nothing leaves the elements of the key
  have honly (zs : List α) : zs.filterMap tell = (zs.filter fun z => key z = k).filterMap tell := by
    rw [List.filterMap_filter]
    apply List.filterMap_congr
    intro z _
    by_cases hz : key z = k
    · simp [hz]
    · simp [hz, htell z hz]
  rw [latest?, latest?, honly xs, honly ys, h k]

end GpuTelemetry
