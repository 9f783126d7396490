import GpuTelemetry.Proofs.Cache.Freshness
import GpuTelemetry.Proofs.Cache.View
import Mathlib.Data.List.Induction
import Mathlib.Tactic.ByContra
/-!
A cache against its history. What is kept under a key should be the last reading stored there, unless
the key was invalidated or the cache cleared since; a look-up answers with it while it is young enough.
A bound on the number of entries can only make the cache forget.
-/

namespace GpuTelemetry.Cache

inductive Op where
  | put (now : Instant) (k : Key) (r : Reading)
  | get (now : Instant) (k : Key)
  | invalidate (k : Key)
  | clear
  | contains (k : Key)
  | stats (now : Instant)

namespace Op

def apply (c : Cache) : Op → Cache
  | put now k r => c.put now k r
  | get now k => (c.get now k).2
  | invalidate k => c.invalidate k
  | clear => c.clear
  | contains _ | stats _ => c

def reading? : Op → Option Instant
  | put now _ _ | get now _ | stats now => some now
  | invalidate _ | clear | contains _ => none

/-- Nothing stored under `k` before this operation is kept after it. -/
def displaces (k : Key) : Op → Bool
  | put _ j _ | invalidate j => j == k
  | clear => true
  | get _ _ | contains _ | stats _ => false

end Op

def after (policy : Policy) (ops : List Op) : Cache := ops.foldl Op.apply (new policy)

def readings (ops : List Op) : List Instant := ops.filterMap Op.reading?

def Standing (ops : List Op) (k : Key) (t₀ : Instant) (r : Reading) : Prop :=
  ∃ earlier later, ops = earlier ++ .put t₀ k r :: later ∧ ∀ op ∈ later, op.displaces k = false

/-- Storing under the new key `j` makes the cache give up what it holds under `k`. -/
def GivesUp (c : Cache) (now : Instant) (j : Key) (r : Reading) (k : Key) : Prop :=
  c.contains j = false ∧ c.contains k = true ∧ (c.put now j r).contains k = false

def Evicted (policy : Policy) (ops : List Op) (k : Key) (t₀ : Instant) (r : Reading) : Prop :=
  ∃ earlier now j s later, ops = earlier ++ .put now j s :: later ∧ Standing earlier k t₀ r ∧
    GivesUp (after policy earlier) now j s k ∧ ∀ op ∈ later, op.displaces k = false

variable {policy : Policy} {ops : List Op} {op : Op} {c : Cache} {k : Key} {t₀ t : Instant}
  {r : Reading}

theorem after_append (ops' : List Op) :
    after policy (ops ++ ops') = ops'.foldl Op.apply (after policy ops) := by
  simp [after, List.foldl_append]

theorem policy_apply : (op.apply c).policy = c.policy := by
  cases op <;> simp [Op.apply]

theorem policy_after : (after policy ops).policy = policy.bounded := by
  induction ops using List.reverseRecOn with
  | nil => rfl
  | append_singleton ops op ih => rw [after_append, List.foldl_cons, List.foldl_nil, policy_apply, ih]

/-- What stands after an operation was stored by it, or stood before and was not displaced. -/
theorem standing_snoc : Standing (ops ++ [op]) k t₀ r ↔
    op = .put t₀ k r ∨ op.displaces k = false ∧ Standing ops k t₀ r := by
  constructor
  · rintro ⟨earlier, later, heq, hlater⟩
    rcases List.eq_nil_or_concat later with rfl | ⟨later, op', rfl⟩
    · exact Or.inl (List.append_inj_right' heq rfl |> List.singleton_inj.1)
    · rw [List.concat_eq_append, ← List.cons_append, ← List.append_assoc] at heq
      obtain ⟨rfl, hop⟩ := List.append_inj' heq rfl
      cases hop
      exact Or.inr ⟨hlater op (by simp), earlier, later, rfl, fun op' h => hlater op' (by simp [h])⟩
  · rintro (rfl | ⟨hop, earlier, later, rfl, hlater⟩)
    · exact ⟨ops, [], rfl, by simp⟩
    · exact ⟨earlier, later ++ [op], by simp, List.forall_mem_append.2 ⟨hlater, by simpa⟩⟩

/-- A history says at most one last thing about a key. -/
theorem Standing.unique {t₁ : Instant} {r' : Reading} (h : Standing ops k t₀ r)
    (h' : Standing ops k t₁ r') : t₁ = t₀ ∧ r' = r := by
  induction ops using List.reverseRecOn with
  | nil =>
    obtain ⟨earlier, later, heq, _⟩ := h
    simp at heq
  | append_singleton ops op ih =>
    rcases standing_snoc.1 h with rfl | ⟨hop, hs⟩ <;> rcases standing_snoc.1 h' with heq | ⟨hop', hs'⟩
    · cases heq
      exact ⟨rfl, rfl⟩
    · simp [Op.displaces] at hop'
    · subst heq
      simp [Op.displaces] at hop
    · exact ih hs hs'

theorem Standing.mem_readings (h : Standing ops k t₀ r) : t₀ ∈ readings ops := by
  obtain ⟨earlier, later, rfl, _⟩ := h
  simp [readings, Op.reading?]

theorem Evicted.snoc (h : Evicted policy ops k t₀ r) (hop : op.displaces k = false) :
    Evicted policy (ops ++ [op]) k t₀ r := by
  obtain ⟨earlier, now, j, s, later, rfl, hs, hg, hlater⟩ := h
  exact ⟨earlier, now, j, s, later ++ [op], by simp, hs, hg,
    List.forall_mem_append.2 ⟨hlater, by simpa⟩⟩

/-- What an operation leaves under a key was there before, or it stored it itself. -/
theorem held?_apply (hroom : c.policy.maxEntries ≠ some 0)
    (h : (op.apply c).held? k = some (t₀, r)) :
    op = .put t₀ k r ∨ op.displaces k = false ∧ c.held? k = some (t₀, r) := by
  cases op with
  | put now j s =>
    by_cases hj : k = j
    · subst hj
      rw [Op.apply, held?_put_self hroom] at h
      cases h
      exact Or.inl rfl
    · exact Or.inr ⟨by simp [Op.displaces, Ne.symm hj], held?_of_put hj h⟩
  -- a look-up may drop what has expired, and brings nothing
  | get now j => exact Or.inr ⟨rfl, held?_of_get h⟩
  | invalidate j =>
    obtain ⟨hj, hold⟩ := held?_of_invalidate h
    exact Or.inr ⟨by simp [Op.displaces, Ne.symm hj], hold⟩
  | clear => simp [Op.apply] at h
  | contains | stats => exact Or.inr ⟨rfl, h⟩

/-- An operation that does not displace what is held under `k` leaves it there, unless a look-up finds
it expired or a new key takes its place. -/
theorem held?_kept_or_lost (hop : op.displaces k = false) (h : c.held? k = some (t₀, r)) :
    (op.apply c).held? k = some (t₀, r) ∨
    (∃ now, op.reading? = some now ∧
      ∃ e : Entry, e.createdAt = t₀ ∧ e.isFresh now c.policy.ttl = false) ∨
    ∃ now j s, op = .put now j s ∧ GivesUp c now j s k := by
  obtain ⟨e, he, hx⟩ := Option.map_eq_some_iff.1 h
  cases op with
  | put now j s =>
    have hj : k ≠ j := fun hkj => by simp [Op.displaces, hkj] at hop
    cases hput : (c.put now j s).item? k with
    | some e' =>
      -- storing under another key keeps the entry or drops it
      have hsame : e' = e := Option.some.inj ((item?_of_put hj hput).symm.trans he)
      exact Or.inl (by simp [Op.apply, held?, hput, hsame, hx])
    | none =>
      refine Or.inr (Or.inr ⟨now, j, s, rfl, ?_, by simp [contains_eq, he], by simp [contains_eq, hput]⟩)
      -- were the new key held already, nothing would have been dropped for it
      by_contra hheld
      rw [item?_put_of_held (by simpa using hheld) hj, he] at hput
      cases hput
  | get now j =>
    by_cases hj : k = j
    · subst hj
      by_cases hf : e.isFresh now c.policy.ttl
      · left
        simpa [Op.apply, held?, item?_get, he, Option.filter, hf, Entry.touch] using hx
      · exact Or.inr (Or.inl ⟨now, rfl, e, (Prod.mk.inj hx).1, by simpa using hf⟩)
    · left
      simpa [Op.apply, held?, item?_get, hj] using h
  | invalidate j =>
    have hj : k ≠ j := fun hkj => by simp [Op.displaces, hkj] at hop
    left
    simpa [Op.apply, held?, item?_invalidate, hj] using h
  | clear => cases hop
  | contains | stats => exact Or.inl h

/-- What the simulation carries along a history: the cache holds only what stands, and what stands it
holds, unless that was found expired at some reading or was given up. -/
structure Follows (policy : Policy) (ops : List Op) (c : Cache) : Prop where
  stands : ∀ k t₀ r, c.held? k = some (t₀, r) → Standing ops k t₀ r
  holds : ∀ k t₀ r, Standing ops k t₀ r → c.held? k = some (t₀, r) ∨
    (∃ t ∈ readings ops, ¬ policy.Within t₀ t) ∨ Evicted policy ops k t₀ r

theorem readings_snoc : readings (ops ++ [op]) = readings ops ++ op.reading?.toList := by
  cases op <;> simp [readings, Op.reading?]

/-- One more operation keeps the simulation. -/
theorem follows_snoc (hroom : policy.maxEntries ≠ some 0)
    (hclock : (readings (ops ++ [op])).Pairwise Instant.UpTo)
    (h : Follows policy ops (after policy ops)) :
    Follows policy (ops ++ [op]) (op.apply (after policy ops)) := by
  have hroom' : (after policy ops).policy.maxEntries ≠ some 0 := by simpa [policy_after] using hroom
  refine ⟨fun k t₀ r hk => standing_snoc.2 ?_, fun k t₀ r hnew => ?_⟩
  · exact (held?_apply hroom' hk).imp id fun ⟨hop, hold⟩ => ⟨hop, h.stands k t₀ r hold⟩
  rcases standing_snoc.1 hnew with rfl | ⟨hop, hs⟩
  · exact Or.inl (held?_put_self hroom')
  -- what had expired or had been given up stays lost; what was held is kept, or lost just now
  rcases h.holds k t₀ r hs with hk | ⟨t, ht, hold⟩ | hev
  · rcases held?_kept_or_lost hop hk with hk | ⟨now, hnow, e, rfl, hf⟩ | ⟨now, j, s, rfl, hg⟩
    · exact Or.inl hk
    · -- the reading comes after the one the entry was stored with
      rw [readings_snoc, hnow] at hclock
      have hup := (List.pairwise_append.1 hclock).2.2 _ hs.mem_readings now (by simp)
      rw [policy_after] at hf
      refine Or.inr (Or.inl ⟨now, by simp [readings_snoc, hnow], fun hw => ?_⟩)
      rw [(Entry.isFresh_iff policy hup).2 hw] at hf
      cases hf
    · exact Or.inr (Or.inr ⟨ops, now, j, s, [], rfl, hs, hg, by simp⟩)
  · exact Or.inr (Or.inl ⟨t, by simp [readings_snoc, ht], hold⟩)
  · exact Or.inr (Or.inr (hev.snoc hop))

/-- The simulation holds of every history whose clock does not go back. -/
theorem follows_after (hroom : policy.maxEntries ≠ some 0)
    (hclock : (readings ops).Pairwise Instant.UpTo) : Follows policy ops (after policy ops) := by
  induction ops using List.reverseRecOn with
  | nil =>
    refine ⟨fun k t₀ r h => by simp [after, held?] at h, ?_⟩
    intro k t₀ r hs
    obtain ⟨earlier, later, h, _⟩ := hs
    simp at h
  | append_singleton ops op ih =>
    rw [after_append, List.foldl_cons, List.foldl_nil]
    refine follows_snoc hroom hclock (ih ?_)
    rw [readings_snoc] at hclock
    exact (List.pairwise_append.1 hclock).1

/-- Without room nothing is ever held. -/
theorem item?_after_of_no_room (hroom : policy.maxEntries = some 0) (k : Key) :
    (after policy ops).item? k = none := by
  -- a cache that may hold nothing is empty, whatever was put into it
  have hempty : (after policy ops).entries = [] := by
    induction ops using List.reverseRecOn with
    | nil => rfl
    | append_singleton ops op ih =>
      have hp : (after policy ops).policy.maxEntries = some 0 := by simpa [policy_after] using hroom
      rw [after_append, List.foldl_cons, List.foldl_nil]
      cases op with
      | put now j s => simpa [Op.apply, put_of_no_room hp] using ih
      | get now j => simp [Op.apply, get, ih, Entries.find?]
      | invalidate j => simp [Op.apply, invalidate, ih, Entries.erase]
      | clear => rfl
      | contains | stats => exact ih
  simp [item?, hempty, Entries.find?]

/-- Without a bound nothing is given up. -/
theorem not_evicted_of_unbounded (h : policy.maxEntries = none) : ¬ Evicted policy ops k t₀ r := by
  intro hev
  obtain ⟨earlier, now, j, s, _, _, _, ⟨hj, hk, hgone⟩, _⟩ := hev
  have hp : (after policy earlier).policy.maxEntries = none := by simpa [policy_after] using h
  have hkj : k ≠ j := by
    intro heq
    subst heq
    simp [hj] at hk
  rw [contains_eq, item?_put_of_unbounded hp hkj, ← contains_eq, hk] at hgone
  cases hgone

section Lookup

variable (hclock : (readings ops ++ [t]).Pairwise Instant.UpTo)

include hclock

/-- What a look-up finds stands, and was stored less than a lifetime ago. -/
theorem standing_of_get (hget : ((after policy ops).get t k).1 = some r) :
    ∃ t₀, Standing ops k t₀ r ∧ policy.Within t₀ t := by
  by_cases hroom : policy.maxEntries = some 0
  · simp [get_eq, item?_after_of_no_room hroom] at hget
  rw [get_eq, policy_after] at hget
  obtain ⟨e, he, rfl⟩ := Option.map_eq_some_iff.1 hget
  obtain ⟨he, hf⟩ := Option.filter_eq_some_iff.1 he
  have hs := (follows_after hroom (List.pairwise_append.1 hclock).1).stands k e.createdAt e.snapshot
    (by simp [held?, he])
  have hup := (List.pairwise_append.1 hclock).2.2 _ hs.mem_readings t (by simp)
  exact ⟨e.createdAt, hs, (Entry.isFresh_iff policy hup).1 hf⟩

/-- What stands and is fresh is found, unless it was given up. -/
theorem get_of_standing (hroom : policy.maxEntries ≠ some 0) (hs : Standing ops k t₀ r)
    (hw : policy.Within t₀ t) :
    ((after policy ops).get t k).1 = some r ∨ Evicted policy ops k t₀ r := by
  rcases (follows_after hroom (List.pairwise_append.1 hclock).1).holds k t₀ r hs with
    hk | ⟨t', ht', hold⟩ | hev
  · obtain ⟨e, he, hx⟩ := Option.map_eq_some_iff.1 hk
    cases hx
    have hup := (List.pairwise_append.1 hclock).2.2 _ hs.mem_readings t (by simp)
    rw [get_eq, policy_after, he]
    simp [Option.filter, (Entry.isFresh_iff policy hup).2 hw]
  · exact absurd (hw.of_le ((List.pairwise_append.1 hclock).2.2 t' ht' t (by simp)).le) hold
  · exact Or.inr hev

/-- **A cache answers with its history.** Without a bound a look-up answers exactly with what stands
under the key and is younger than the lifetime; hits in between and expired entries dropped on the way
make no difference. With a bound the answer is that one or none, and none in its place only if the
cache has no room at all or gave the key up for a new one since. -/
theorem get_answers_with_history :
    (policy.maxEntries = none → ∀ r, ((after policy ops).get t k).1 = some r ↔
      ∃ t₀, Standing ops k t₀ r ∧ policy.Within t₀ t) ∧
    (∀ n, policy.maxEntries = some n →
      (∀ r, ((after policy ops).get t k).1 = some r →
        ∃ t₀, Standing ops k t₀ r ∧ policy.Within t₀ t) ∧
      ∀ t₀ r, Standing ops k t₀ r → policy.Within t₀ t → ((after policy ops).get t k).1 = none →
        n = 0 ∨ Evicted policy ops k t₀ r) := by
  refine ⟨fun hb r => ⟨standing_of_get hclock, fun ⟨t₀, hs, hw⟩ => ?_⟩,
    fun n hb => ⟨fun r => standing_of_get hclock, fun t₀ r hs hw hnone => ?_⟩⟩
  · exact (get_of_standing hclock (by simp [hb]) hs hw).resolve_right (not_evicted_of_unbounded hb)
  · -- a bound of zero explains every miss
    by_cases hn : n = 0
    · exact Or.inl hn
    · rcases get_of_standing hclock (by simp [hb, hn]) hs hw with hget | hev
      · simp [hnone] at hget
      · exact Or.inr hev

end Lookup

/-- A reading that is replaced after it was found: the later one is found, and the age counts from there. -/
theorem get_answers_with_history_of_replaced :
    ([0, 400000, 600000, 1500000] : List Instant).Pairwise Instant.UpTo ∧
    ((after { ttl := 1 } [.put 0 (.device 3) .sentinel, .get 400000 (.device 3),
      .put 600000 (.device 3) { active := some true }]).get 1500000 (.device 3)).1 =
        some { active := some true } :=
  ⟨by decide, ((get_answers_with_history (by decide)).1 rfl _).2
    ⟨600000, ⟨[.put 0 (.device 3) .sentinel, .get 400000 (.device 3)], [], rfl, by simp⟩, by decide⟩⟩

end GpuTelemetry.Cache
