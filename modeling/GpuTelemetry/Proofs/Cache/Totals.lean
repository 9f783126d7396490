import GpuTelemetry.Proofs.Cache.Storing
import Mathlib.Algebra.BigOperators.Group.Finset.Piecewise
import Mathlib.Algebra.Order.BigOperators.Group.Finset
import Mathlib.Algebra.Ring.Nat
import Mathlib.Data.Finset.Max
import Mathlib.Data.List.DropRight
/-!
The totals of a cache against its history. A history is told with what each look-up found; so it says
when something was last stored under a key, and how many look-ups have found it since. Every entry keeps
these two for its key, whatever becomes of the others, and the totals are sums and extremes of them: they
do not depend on the order in which the entries are met.
-/

namespace GpuTelemetry.Cache

def Op.storedAt? (k : Key) : Op → Option Instant
  | put now j _ => if j = k then some now else none
  | get _ _ | invalidate _ | clear | contains _ | stats _ => none

structure Event where
  op : Op
  found : Option Reading

def Event.isHit (k : Key) (ev : Event) : Bool :=
  match ev.op with
  | .get _ j => j == k && ev.found.isSome
  | .put _ _ _ | .invalidate _ | .clear | .contains _ | .stats _ => false

/-- The operation as it goes on `c`. -/
def Op.on (c : Cache) (op : Op) : Event :=
  { op, found := match op with
      | get now k => (c.get now k).1
      | put _ _ _ | invalidate _ | clear | contains _ | stats _ => none }

def lastStored? (k : Key) (events : List Event) : Option Instant :=
  events.reverse.findSome? (·.op.storedAt? k)

def hits (k : Key) (events : List Event) : ℕ :=
  (events.rtakeWhile fun ev => (ev.op.storedAt? k).isNone).countP (Event.isHit k)

def clock (events : List Event) : List Instant := readings (events.map Event.op)

def Steady (ts : List Instant) : Prop := ts.Pairwise fun a b => a.toInt ≤ b.toInt

instance (ts : List Instant) : Decidable (Steady ts) :=
  inferInstanceAs (Decidable (ts.Pairwise _))

/-- The cache comes about by the events, the earliest first; between them the order of its entries may
change in any way. -/
inductive Ran (policy : Policy) : List Event → Cache → Prop where
  | new : Ran policy [] (new policy)
  | apply {events : List Event} {c : Cache} (op : Op) (h : Ran policy events c) :
      Ran policy (events ++ [op.on c]) (op.apply c)
  | reorder {events : List Event} {c : Cache} {es : Entries} (hes : es.Perm c.entries)
      (h : Ran policy events c) : Ran policy events (c.reorder es)

def held (c : Cache) : Finset Key := (Entries.keys c.entries).toFinset

/-- What the entry of `k` says of the history: when it was stored, how often it has been found since, and
when it was last stored or found. -/
structure Entry.Recounts (e : Entry) (k : Key) (events : List Event) : Prop where
  stored : lastStored? k events = some e.createdAt
  found : e.accessCount = UInt64.ofNat (hits k events)
  le : e.createdAt.toInt ≤ e.lastAccessedAt.toInt
  read : e.lastAccessedAt ∈ clock events

structure Earliest (events : List Event) (c : Cache) (t : Instant) : Prop where
  attained : ∃ k ∈ c.held, lastStored? k events = some t
  le : ∀ k ∈ c.held, ∀ t', lastStored? k events = some t' → t.toInt ≤ t'.toInt

variable {policy : Policy} {events : List Event} {ev : Event} {op : Op} {c : Cache} {k : Key}
  {e : Entry} {now t : Instant} {es : Entries}

section History

theorem steady_snoc {ts : List Instant} :
    Steady (ts ++ [t]) ↔ Steady ts ∧ ∀ a ∈ ts, a.toInt ≤ t.toInt := by
  simp [Steady, List.pairwise_append]

theorem lastStored?_snoc : lastStored? k (events ++ [ev]) =
    (ev.op.storedAt? k).or (lastStored? k events) := by
  rw [lastStored?, List.reverse_append, List.findSome?_append, List.reverse_singleton,
    List.findSome?_singleton, lastStored?]

theorem hits_snoc_of_stored (h : ev.op.storedAt? k = some t) : hits k (events ++ [ev]) = 0 := by
  rw [hits, List.rtakeWhile_concat_neg _ _ _ (by simp [h]), List.countP_nil]

theorem hits_snoc_of_not_stored (h : ev.op.storedAt? k = none) :
    hits k (events ++ [ev]) = hits k events + if ev.isHit k then 1 else 0 := by
  rw [hits, List.rtakeWhile_concat_pos _ _ _ (by simp [h]), List.countP_append, List.countP_singleton,
    hits]

theorem clock_snoc : clock (events ++ [ev]) = clock events ++ ev.op.reading?.toList := by
  rw [clock, List.map_append, List.map_singleton, readings_snoc, clock]

theorem Op.storedAt?_eq_some : op.storedAt? k = some t ↔ ∃ r, op = .put t k r := by
  cases op with
  | put now j r =>
    by_cases hj : j = k
    · simp [storedAt?, hj]
    · simp [storedAt?, hj]
  | get | invalidate | clear | contains | stats => simp [storedAt?]

theorem mem_clock_of_lastStored? (h : lastStored? k events = some t) : t ∈ clock events := by
  obtain ⟨ev, hev, hstored⟩ := List.exists_of_findSome?_eq_some h
  obtain ⟨r, hop⟩ := Op.storedAt?_eq_some.1 hstored
  exact List.mem_filterMap.2 ⟨ev.op, List.mem_map_of_mem (List.mem_reverse.1 hev), by rw [hop]; rfl⟩

/-- A look-up finds something under one key at most. -/
theorem sum_isHit_le (s : Finset Key) (ev : Event) : ∑ k ∈ s, (if ev.isHit k then 1 else 0) ≤ 1 := by
  obtain ⟨op, found⟩ := ev
  cases op with
  -- only the key that is looked up can be hit
  | get now j =>
    have hkey : ∀ k ∈ s, (if Event.isHit k ⟨.get now j, found⟩ then 1 else 0) ≤
        if j = k then 1 else 0 := by
      intro k _
      by_cases hj : j = k
      · rw [if_pos hj]
        split <;> simp
      · simp [Event.isHit, hj]
    calc ∑ k ∈ s, (if Event.isHit k ⟨.get now j, found⟩ then 1 else 0)
        ≤ ∑ k ∈ s, (if j = k then 1 else 0) := Finset.sum_le_sum hkey
      _ = if j ∈ s then 1 else 0 := Finset.sum_ite_eq s j fun _ => 1
      _ ≤ 1 := by split <;> simp
  | put | invalidate | clear | contains | stats => simp [Event.isHit]

/-- There are no more hits than events. -/
theorem sum_hits_le (s : Finset Key) (events : List Event) :
    ∑ k ∈ s, hits k events ≤ events.length := by
  induction events using List.reverseRecOn with
  | nil => simp [hits]
  | append_singleton events ev ih =>
    -- what is stored under a key takes its hits away, so no key has more than one more than before
    have hstep : ∀ k ∈ s, hits k (events ++ [ev]) ≤ hits k events + if ev.isHit k then 1 else 0 := by
      intro k _
      cases hstored : ev.op.storedAt? k with
      | none => exact (hits_snoc_of_not_stored hstored).le
      | some t => simp [hits_snoc_of_stored hstored]
    calc ∑ k ∈ s, hits k (events ++ [ev])
        ≤ ∑ k ∈ s, (hits k events + if ev.isHit k then 1 else 0) := Finset.sum_le_sum hstep
      _ = ∑ k ∈ s, hits k events + ∑ k ∈ s, (if ev.isHit k then 1 else 0) := Finset.sum_add_distrib
      _ ≤ events.length + 1 := Nat.add_le_add ih (sum_isHit_le s ev)
      _ = (events ++ [ev]).length := by simp

/-- With what is stored the count starts again. -/
theorem recounts_new {r : Reading} {sequence : UInt64} (hop : ev.op = .put now k r) :
    (Entry.new r now sequence).Recounts k (events ++ [ev]) := by
  have hstored : ev.op.storedAt? k = some now := Op.storedAt?_eq_some.2 ⟨r, hop⟩
  refine ⟨?_, ?_, le_rfl, ?_⟩
  · rw [lastStored?_snoc, hstored]
    rfl
  · rw [hits_snoc_of_stored hstored]
    rfl
  · rw [clock_snoc, hop]
    exact List.mem_append_right _ (List.mem_singleton_self now)

/-- What is found counts one more; the clock has not gone back since it was stored. -/
theorem Entry.Recounts.touch (h : e.Recounts k events) (hop : ev.op = .get now k)
    (hhit : ev.isHit k = true) (hclock : Steady (clock (events ++ [ev]))) :
    (e.touch now).Recounts k (events ++ [ev]) := by
  have hstored : ev.op.storedAt? k = none := by rw [hop]; rfl
  have hnow : clock (events ++ [ev]) = clock events ++ [now] := by rw [clock_snoc, hop]; rfl
  rw [hnow] at hclock
  refine ⟨?_, ?_, (steady_snoc.1 hclock).2 _ (mem_clock_of_lastStored? h.stored), ?_⟩
  · rw [lastStored?_snoc, hstored]
    exact h.stored
  · rw [hits_snoc_of_not_stored hstored, if_pos hhit, UInt64.ofNat_add, ← h.found]
    rfl
  · rw [hnow]
    exact List.mem_append_right _ (List.mem_singleton_self now)

/-- Events that have nothing to do with a key leave its entry right. -/
theorem Entry.Recounts.skip (h : e.Recounts k events) (hstored : ev.op.storedAt? k = none)
    (hhit : ev.isHit k = false) : e.Recounts k (events ++ [ev]) := by
  refine ⟨?_, ?_, h.le, ?_⟩
  · rw [lastStored?_snoc, hstored]
    exact h.stored
  · rw [hits_snoc_of_not_stored hstored, hhit]
    exact h.found
  · rw [clock_snoc]
    exact List.mem_append_left _ h.read

end History

section Run

/-- Without what was found it is a history of operations. -/
theorem Ran.reached (h : Ran policy events c) : Reached policy (events.map Event.op) c := by
  induction h with
  | new => exact .new
  | apply op _ ih =>
    rw [List.map_append]
    exact ih.apply op
  | reorder hes _ ih => exact ih.reorder hes

/-- Every history can be told with what its look-ups found. -/
theorem Reached.ran {ops : List Op} (h : Reached policy ops c) :
    ∃ events, events.map Event.op = ops ∧ Ran policy events c := by
  induction h with
  | new => exact ⟨[], rfl, .new⟩
  | apply op _ ih =>
    obtain ⟨events, hops, hran⟩ := ih
    exact ⟨_, by rw [List.map_append, hops]; rfl, hran.apply op⟩
  | reorder hes _ ih =>
    obtain ⟨events, hops, hran⟩ := ih
    exact ⟨events, hops, hran.reorder hes⟩

theorem item?_of_no_room (h : Tidy c) (hroom : c.policy.maxEntries = some 0) : c.item? k = none := by
  have hempty : c.entries = [] := List.length_eq_zero_iff.1 (Nat.le_zero.1 (h.bounded 0 hroom))
  rw [item?, hempty]
  rfl

/-- What is held under `k` after an operation was stored by it, or found by it, or it has nothing to do
with it. -/
theorem item?_apply (h : Tidy c) (he : (op.apply c).item? k = some e) :
    (∃ now r, op = .put now k r ∧ e = .new r now c.nextSequence) ∨
    (∃ now f, op = .get now k ∧ (op.on c).isHit k = true ∧ c.item? k = some f ∧ e = f.touch now) ∨
    (op.storedAt? k = none ∧ (op.on c).isHit k = false ∧ c.item? k = some e) := by
  cases op with
  | put now j r =>
    by_cases hj : j = k
    · subst hj
      left
      -- with a bound of zero nothing is stored, but then nothing is held either
      by_cases hroom : c.policy.maxEntries = some 0
      · rw [Op.apply, put_of_no_room hroom, item?_of_no_room h hroom] at he
        cases he
      · rw [Op.apply, item?_put_self hroom] at he
        exact ⟨now, r, rfl, (Option.some.inj he).symm⟩
    · exact Or.inr (Or.inr ⟨by simp [Op.storedAt?, hj], rfl, item?_of_put (Ne.symm hj) he⟩)
  | get now j =>
    rw [Op.apply, item?_get] at he
    by_cases hj : k = j
    · subst hj
      rw [if_pos rfl] at he
      obtain ⟨f, hf, rfl⟩ := Option.map_eq_some_iff.1 he
      have hfound : (c.get now k).1 = some f.snapshot := by rw [get_eq, hf, Option.map_some]
      have hheld : c.item? k = some f := (Option.filter_eq_some_iff.1 hf).1
      exact Or.inr (Or.inl ⟨now, f, rfl, by simp [Event.isHit, Op.on, hfound], hheld, rfl⟩)
    · rw [if_neg hj] at he
      exact Or.inr (Or.inr ⟨rfl, by simp [Event.isHit, Op.on, Ne.symm hj], he⟩)
  | invalidate j =>
    rw [Op.apply, item?_invalidate] at he
    split at he
    · cases he
    · exact Or.inr (Or.inr ⟨rfl, rfl, he⟩)
  | clear => cases he
  | contains | stats => exact Or.inr (Or.inr ⟨rfl, rfl, he⟩)

/-- Every operation leaves each entry with the right account of the history. -/
theorem recounts_apply (h : Tidy c) (hclock : Steady (clock (events ++ [op.on c])))
    (hall : ∀ k e, c.item? k = some e → e.Recounts k events)
    (he : (op.apply c).item? k = some e) : e.Recounts k (events ++ [op.on c]) := by
  rcases item?_apply h he with ⟨now, r, rfl, rfl⟩ | ⟨now, f, rfl, hhit, hf, rfl⟩ | ⟨hstored, hhit, he⟩
  · exact recounts_new rfl
  · exact (hall k f hf).touch rfl hhit hclock
  · exact (hall k e he).skip hstored hhit

/-- As long as the clock does not go back, each entry gives the right account of the history. -/
theorem Ran.recounts (h : Ran policy events c) (hclock : Steady (clock events)) :
    ∀ k e, c.item? k = some e → e.Recounts k events := by
  -- on the run; the order of the entries is not seen by `item?`
  induction h with
  | new =>
    intro k e he
    cases he
  | apply op h ih =>
    intro k e he
    have hbefore := hclock
    rw [clock_snoc] at hbefore
    exact recounts_apply h.reached.tidy hclock (ih (List.pairwise_append.1 hbefore).1) he
  | reorder hes h ih =>
    intro k e he
    rw [item?_reorder hes h.reached.tidy.keys] at he
    exact ih hclock k e he

end Run

section Held

theorem contains_iff : c.contains k = true ↔ ∃ e, c.item? k = some e := by
  rw [contains_eq, Option.isSome_iff_exists]

theorem mem_held : k ∈ c.held ↔ c.contains k = true := by
  rw [held, List.mem_toFinset, contains_iff]
  constructor
  · intro hk
    have hnone : c.item? k ≠ none := by
      intro hnone
      obtain ⟨p, hp, rfl⟩ := List.mem_map.1 hk
      exact Entries.find?_eq_none.1 hnone p hp rfl
    exact Option.ne_none_iff_exists'.1 hnone
  · rintro ⟨e, he⟩
    exact List.mem_map.2 ⟨(k, e), Entries.mem_of_find? he, rfl⟩

theorem held_eq_empty_iff : c.held = ∅ ↔ c.entries = [] := by
  rw [held, List.toFinset_eq_empty_iff, Entries.keys, List.map_eq_nil_iff]

end Held

section Accesses

/-- A sum of words over the entries is the sum over the keys, as a word. -/
theorem foldl_accessCount (f : Key → ℕ) (es : Entries)
    (h : ∀ p ∈ es, p.2.accessCount = UInt64.ofNat (f p.1)) (n : ℕ) :
    es.foldl (fun n p => n + p.2.accessCount) (UInt64.ofNat n) =
      UInt64.ofNat (n + ((Entries.keys es).map f).sum) := by
  induction es generalizing n with
  | nil => rfl
  | cons p es ih =>
    have hsum : ((Entries.keys (p :: es)).map f).sum = f p.1 + ((Entries.keys es).map f).sum :=
      List.sum_cons
    have hrest := ih fun q hq => h q (List.mem_cons_of_mem p hq)
    rw [List.foldl_cons, h p List.mem_cons_self, ← UInt64.ofNat_add, hrest, hsum, Nat.add_assoc]

/-- The accesses are a sum over the keys held. -/
theorem totalAccesses_stats (hkeys : (Entries.keys c.entries).Nodup) (f : Key → ℕ)
    (h : ∀ k e, c.item? k = some e → e.accessCount = UInt64.ofNat (f k)) (now : Instant) :
    (c.stats now).totalAccesses = UInt64.ofNat (∑ k ∈ c.held, f k) := by
  have hentries : ∀ p ∈ c.entries, p.2.accessCount = UInt64.ofNat (f p.1) :=
    fun p hp => h p.1 p.2 (Entries.find?_of_mem hkeys hp)
  rw [held, List.sum_toFinset f hkeys]
  exact (foldl_accessCount f c.entries hentries 0).trans (by rw [Nat.zero_add])

end Accesses

section Ages

inductive Oldest : List Millis → Option Millis → Prop where
  | nil : Oldest [] none
  | greatest {ages : List Millis} {a : Millis} (hmem : a ∈ ages) (hle : ∀ b ∈ ages, b.toInt ≤ a.toInt) :
      Oldest ages (some a)

theorem oldest_older {ages : List Millis} {o : Option Millis} (h : Oldest ages o) (age : Millis) :
    Oldest (ages ++ [age]) (older o age) := by
  cases h with
  | nil =>
    refine .greatest (List.mem_singleton_self age) ?_
    intro b hb
    rw [List.mem_singleton.1 hb]
  | @greatest _ a hmem hle =>
    by_cases hlt : a.toInt < age.toInt
    · have holder : older (some a) age = some age := if_pos (Int64.lt_iff_toInt_lt.2 hlt)
      rw [holder]
      refine .greatest (List.mem_append_right _ (List.mem_singleton_self age)) ?_
      refine List.forall_mem_append.2 ⟨fun b hb => (hle b hb).trans hlt.le, ?_⟩
      exact List.forall_mem_singleton.2 le_rfl
    · have holder : older (some a) age = some a := if_neg (mt Int64.lt_iff_toInt_lt.1 hlt)
      rw [holder]
      refine .greatest (List.mem_append_left _ hmem) ?_
      exact List.forall_mem_append.2 ⟨hle, List.forall_mem_singleton.2 (not_lt.1 hlt)⟩

theorem oldest_foldl (ages : List Millis) : Oldest ages (ages.foldl older none) := by
  induction ages using List.reverseRecOn with
  | nil => exact .nil
  | append_singleton ages age ih =>
    rw [List.foldl_append]
    exact oldest_older ih age

theorem Oldest.eq_none_iff {ages : List Millis} {o : Option Millis} (h : Oldest ages o) :
    o = none ↔ ages = [] := by
  cases h with
  | nil => simp
  | greatest hmem _ => simp [List.ne_nil_of_mem hmem]

theorem Oldest.exists_of_mem {ages : List Millis} {o : Option Millis} (h : Oldest ages o) {b : Millis}
    (hb : b ∈ ages) : ∃ a ∈ ages, o = some a ∧ b.toInt ≤ a.toInt := by
  cases h with
  | nil => cases hb
  | greatest hmem hle => exact ⟨_, hmem, rfl, hle b hb⟩

/-- The order of the ages makes no difference. -/
theorem Oldest.eq_of_perm {ages ages' : List Millis} {o o' : Option Millis} (h : Oldest ages o)
    (h' : Oldest ages' o') (hperm : ages.Perm ages') : o = o' := by
  cases h with
  | nil => rw [h'.eq_none_iff.2 hperm.nil_eq.symm]
  | @greatest _ a hmem hle =>
    cases h' with
    | nil => exact absurd hperm.eq_nil (List.ne_nil_of_mem hmem)
    | @greatest _ a' hmem' hle' =>
      have heq : a.toInt = a'.toInt :=
        le_antisymm (hle' a (hperm.subset hmem)) (hle a' (hperm.symm.subset hmem'))
      rw [Int64.toInt_inj.1 heq]

/-- The age reported is the greatest of the ages of the entries. -/
theorem oldest_stats (c : Cache) (now : Instant) :
    Oldest (c.entries.map fun p => p.2.age now) (c.stats now).oldestEntryAge := by
  have hfold := oldest_foldl (c.entries.map fun p => p.2.age now)
  rwa [List.foldl_map] at hfold

/-- The totals do not depend on the order of the entries. -/
theorem stats_reorder (hes : es.Perm c.entries) (now : Instant) :
    (c.reorder es).stats now = c.stats now := by
  have haccesses : ((c.reorder es).stats now).totalAccesses = (c.stats now).totalAccesses := by
    refine hes.foldl_eq' ?_ 0
    intro p _ q _ n
    rw [UInt64.add_assoc, UInt64.add_assoc, UInt64.add_comm q.2.accessCount]
  have holdest := (oldest_stats (c.reorder es) now).eq_of_perm (oldest_stats c now) (hes.map _)
  rw [Stats.mk.injEq]
  exact ⟨hes.length_eq, haccesses, holdest⟩

/-- The age of an entry is exact, cut to whole milliseconds. -/
theorem Entry.toInt_age (h : e.createdAt.UpTo now) :
    (e.age now).toInt = (now.toInt - e.createdAt.toInt) / 1000000 := by
  have hle := h.le
  have hspan := h.span
  have hmilli : nanosPerMilli.toInt = 1000000 := by decide
  -- the difference is not negative, so cutting it off is dividing with remainder
  rw [age, Int64.toInt_div, toInt_sub_of_isWord h.isWord, hmilli,
    Int.tdiv_eq_ediv_of_nonneg (by omega)]
  exact Int.bmod_eq_of_le (by omega) (by omega)

end Ages

structure Totals (events : List Event) (c : Cache) (now : Instant) : Prop where
  keys : ∀ k, k ∈ c.held ↔ c.contains k = true
  entries : (c.stats now).totalEntries = c.held.card
  size : c.size = c.held.card
  accesses : (c.stats now).totalAccesses = UInt64.ofNat (∑ k ∈ c.held, hits k events)
  /-- The word does not wrap around in fewer than 2⁶⁴ events. -/
  toNat_accesses : events.length < UInt64.size →
    (c.stats now).totalAccesses.toNat = ∑ k ∈ c.held, hits k events
  absent : (c.stats now).oldestEntryAge = none ↔ c.held = ∅
  earliest : c.held.Nonempty → ∃ t, Earliest events c t
  oldest : ∀ t, Earliest events c t → now.toInt - t.toInt < 2 ^ 63 →
    ∃ age, (c.stats now).oldestEntryAge = some age ∧ age.toInt = (now.toInt - t.toInt) / 1000000

section Totals

/-- If anything is held, one of the keys was stored under first. -/
theorem exists_earliest (hall : ∀ k e, c.item? k = some e → e.Recounts k events)
    (hne : c.held.Nonempty) : ∃ t, Earliest events c t := by
  have hstored : ∀ k ∈ c.held, ∃ t, lastStored? k events = some t := by
    intro k hk
    obtain ⟨e, he⟩ := contains_iff.1 (mem_held.1 hk)
    exact ⟨e.createdAt, (hall k e he).stored⟩
  -- the default is never met: something was stored under every key held
  obtain ⟨k, hk, hmin⟩ :=
    c.held.exists_min_image (fun k => ((lastStored? k events).getD 0).toInt) hne
  obtain ⟨t, ht⟩ := hstored k hk
  refine ⟨t, ⟨k, hk, ht⟩, ?_⟩
  intro j hj t' ht'
  simpa [ht, ht'] using hmin j hj

/-- Where no age wraps around, the oldest one is that of what was stored first. -/
theorem oldestEntryAge_stats (hkeys : (Entries.keys c.entries).Nodup)
    (hall : ∀ k e, c.item? k = some e → e.Recounts k events)
    (hclock : Steady (clock events ++ [now])) (ht : Earliest events c t)
    (hspan : now.toInt - t.toInt < 2 ^ 63) :
    ∃ age, (c.stats now).oldestEntryAge = some age ∧
      age.toInt = (now.toInt - t.toInt) / 1000000 := by
  -- no entry was stored before `t`, nor after `now`, so every age is exact and none is greater
  have hage : ∀ p ∈ c.entries, t.toInt ≤ p.2.createdAt.toInt ∧
      (p.2.age now).toInt = (now.toInt - p.2.createdAt.toInt) / 1000000 := by
    intro p hp
    have he : c.item? p.1 = some p.2 := Entries.find?_of_mem hkeys hp
    have hstored := (hall p.1 p.2 he).stored
    have hfirst := ht.le p.1 (mem_held.2 (contains_iff.2 ⟨p.2, he⟩)) p.2.createdAt hstored
    have hlast := (steady_snoc.1 hclock).2 _ (mem_clock_of_lastStored? hstored)
    exact ⟨hfirst, Entry.toInt_age ⟨hlast, by omega⟩⟩
  obtain ⟨k, hk, hkt⟩ := ht.attained
  obtain ⟨e, he⟩ := contains_iff.1 (mem_held.1 hk)
  have hmem : (k, e) ∈ c.entries := Entries.mem_of_find? he
  have het : e.createdAt = t := Option.some.inj ((hall k e he).stored.symm.trans hkt)
  have heage : (e.age now).toInt = (now.toInt - t.toInt) / 1000000 := het ▸ (hage (k, e) hmem).2
  -- the greatest age may be that of another entry, but in whole milliseconds it is the same
  obtain ⟨a, ha, hstats, hle⟩ :=
    (oldest_stats c now).exists_of_mem (List.mem_map_of_mem hmem)
  obtain ⟨p, hp, rfl⟩ := List.mem_map.1 ha
  obtain ⟨hfirst, hp⟩ := hage p hp
  refine ⟨p.2.age now, hstats, ?_⟩
  change (e.age now).toInt ≤ _ at hle
  omega

/-- The totals, from the accounts that the entries give. -/
theorem totals (hkeys : (Entries.keys c.entries).Nodup)
    (hall : ∀ k e, c.item? k = some e → e.Recounts k events)
    (hclock : Steady (clock events ++ [now])) : Totals events c now := by
  have hlength : c.entries.length = c.held.card := by
    rw [held, List.toFinset_card_of_nodup hkeys, Entries.keys, List.length_map]
  have haccesses := totalAccesses_stats hkeys (hits · events) (fun k e he => (hall k e he).found) now
  refine ⟨fun _ => mem_held, hlength, hlength, haccesses, ?_, ?_, exists_earliest hall, ?_⟩
  · intro hfew
    rw [haccesses]
    exact UInt64.toNat_ofNat_of_lt' ((sum_hits_le c.held events).trans_lt hfew)
  · rw [(oldest_stats c now).eq_none_iff, List.map_eq_nil_iff, held_eq_empty_iff]
  · intro t ht hspan
    exact oldestEntryAge_stats hkeys hall hclock ht hspan

/-- **The totals of a cache are those of its history.** The states that a cache can reach are those that
come about by events; in each of them, while its clock does not go back and with its entries in any
order, it counts the keys it holds, the look-ups that have found something under them since something was
last stored there, and the whole milliseconds since the earliest of those times. No entry was used before
it was stored, or later than now; and totals, the question whether a key is held and look-ups under keys
that are not held leave everything as it is. -/
theorem stats_match_history (policy : Policy) :
    (∀ ops c, Reached policy ops c ↔ ∃ events, events.map Event.op = ops ∧ Ran policy events c) ∧
    ∀ events c now, Ran policy events c → Steady (clock events ++ [now]) →
      Totals events c now ∧
      (∀ es, es.Perm c.entries → (c.reorder es).stats now = c.stats now) ∧
      (∀ k e, c.item? k = some e →
        e.createdAt.toInt ≤ e.lastAccessedAt.toInt ∧ e.lastAccessedAt.toInt ≤ now.toInt) ∧
      (∀ t, (Op.stats t).apply c = c) ∧ (∀ k, (Op.contains k).apply c = c) ∧
      ∀ k t, k ∉ c.held → (c.get t k).2 = c := by
  constructor
  · intro ops c
    constructor
    · exact Reached.ran
    · rintro ⟨events, rfl, hran⟩
      exact hran.reached
  intro events c now h hclock
  obtain ⟨hsteady, hlast⟩ := steady_snoc.1 hclock
  have hall := h.recounts hsteady
  refine ⟨totals h.reached.tidy.keys hall hclock, fun _ hes => stats_reorder hes now, ?_,
    fun _ => rfl, fun _ => rfl, ?_⟩
  · intro k e he
    have hr := hall k e he
    exact ⟨hr.le, hlast _ hr.read⟩
  · intro k t hk
    -- a key that is not held has no entry, so there is nothing to touch or to remove
    have habsent : c.item? k = none := by
      by_contra hsome
      exact hk (mem_held.2 (contains_iff.2 (Option.ne_none_iff_exists'.1 hsome)))
    rw [get_of_absent habsent]

end Totals

def threeFound : List Event :=
  [⟨.put 0 (.device 0) .sentinel, none⟩, ⟨.put 30000000 (.device 1) .sentinel, none⟩,
    ⟨.get 50000000 (.device 0), some .sentinel⟩, ⟨.get 50000000 (.device 0), some .sentinel⟩,
    ⟨.get 50000000 (.device 1), some .sentinel⟩, ⟨.get 50000000 (.device 7), none⟩]

/-- Two keys, of which the second is stored later; three look-ups that find something, and one that does
not. -/
theorem stats_match_history_of_found :
    ∃ c, Ran ⟨10000, none⟩ threeFound c ∧ Steady (clock threeFound ++ [50000000]) ∧
      (c.stats 50000000).totalAccesses.toNat = 3 ∧
      ∃ age, (c.stats 50000000).oldestEntryAge = some age ∧ age.toInt = 50 := by
  have hran : Ran ⟨10000, none⟩ threeFound (after ⟨10000, none⟩ (threeFound.map Event.op)) :=
    (((((Ran.new.apply (.put 0 (.device 0) .sentinel)).apply
      (.put 30000000 (.device 1) .sentinel)).apply (.get 50000000 (.device 0))).apply
      (.get 50000000 (.device 0))).apply (.get 50000000 (.device 1))).apply
      (.get 50000000 (.device 7))
  have hsteady : Steady (clock threeFound ++ [50000000]) := by decide
  have htotals := ((stats_match_history ⟨10000, none⟩).2 _ _ _ hran hsteady).1
  have hclock : (clock threeFound).all (0 ≤ ·.toInt) = true := by decide
  refine ⟨_, hran, hsteady, ?_, htotals.oldest 0 ⟨⟨.device 0, by decide, rfl⟩, ?_⟩ (by decide)⟩
  · rw [htotals.toNat_accesses (by decide)]
    decide
  · intro k _ t ht
    exact of_decide_eq_true (List.all_eq_true.1 hclock t (mem_clock_of_lastStored? ht))

end GpuTelemetry.Cache
