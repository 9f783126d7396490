import GpuTelemetry.Proofs.Cache.Inclusion
import Mathlib.Data.List.Perm.Basic

namespace GpuTelemetry.Cache

namespace Entries

variable {es fs : Entries} {k : Key} {e : Entry} {bound : ℕ}

theorem keys_perm (h : es.Perm fs) : (keys es).Perm (keys fs) := h.map Prod.fst

theorem find?_perm (h : es.Perm fs) (hkeys : (keys es).Nodup) (k : Key) :
    find? es k = find? fs k := by
  have hkeys' : (keys fs).Nodup := (keys_perm h).nodup_iff.1 hkeys
  apply Option.ext
  intro e
  constructor
  · intro he
    exact find?_of_mem hkeys' (h.subset (mem_of_find? he))
  · intro he
    exact find?_of_mem hkeys (h.symm.subset (mem_of_find? he))

def Ranked (es : Entries) : Prop := ∀ p ∈ es, ∀ q ∈ es, p.2.rank = q.2.rank → p = q

theorem Ranked.erase (h : Ranked es) (k : Key) : Ranked (erase es k) := by
  intro p hp q hq hpq
  exact h p (List.mem_of_mem_filter hp) q (List.mem_of_mem_filter hq) hpq

/-- The search for the entry to give up ends at the same one in every order. -/
theorem victim?_perm (h : es.Perm fs) (hranked : Ranked es) : es.victim? = fs.victim? := by
  by_cases hne : es = []
  · subst hne
    rw [h.nil_eq]
  have hne' : fs ≠ [] := by
    intro heq
    subst heq
    exact hne h.eq_nil
  obtain ⟨v, hv⟩ := victim?_isSome hne
  obtain ⟨w, hw⟩ := victim?_isSome hne'
  -- each of the two is met in both orders, so neither comes before the other
  have hvmem : v ∈ es := mem_of_victim? hv
  have hwmem : w ∈ es := h.symm.subset (mem_of_victim? hw)
  have hle : v.2.rank ≤ w.2.rank := victim?_rank_le hv w hwmem
  have hge : w.2.rank ≤ v.2.rank := victim?_rank_le hw v (h.subset hvmem)
  rw [hv, hw, hranked v hvmem w hwmem (le_antisymm hle hge)]

/-- Whatever the order of the entries, the same ones are left. -/
theorem makeRoom_perm (h : es.Perm fs) (hranked : Ranked es) (bound : ℕ) :
    (makeRoom bound es).Perm (makeRoom bound fs) := by
  -- both lists have the same victim, so turn by turn they stay permutations
  induction es using makeRoom.induct bound generalizing fs with
  | case1 es _ hv =>
    have hv' : fs.victim? = none := by rw [← victim?_perm h hranked, hv]
    rwa [makeRoom_of_empty hv, makeRoom_of_empty hv']
  | case2 es hfull v hv _ ih =>
    have hfull' : bound ≤ fs.length := by rwa [← h.length_eq]
    have hv' : fs.victim? = some v := by rw [← victim?_perm h hranked, hv]
    rw [makeRoom_of_victim? hfull hv, makeRoom_of_victim? hfull' hv']
    exact ih (h.filter _) (hranked.erase v.1)
  | case3 es hroom =>
    have hroom' : fs.length < bound := by
      rw [← h.length_eq]
      exact Nat.not_le.1 hroom
    rwa [makeRoom_of_lt (Nat.not_le.1 hroom), makeRoom_of_lt hroom']

def giveUp (es : Entries) : Entries :=
  match es.victim? with
  | none => es
  | some v => erase es v.1

theorem giveUp_of_victim? {v : Key × Entry} (h : es.victim? = some v) :
    giveUp es = erase es v.1 := by
  rw [giveUp, h]

/-- The search for room starts with the first entries and stops with the second, after so many turns: it
goes on as long as `bound` entries or more are left. -/
inductive Frees (bound : ℕ) : ℕ → Entries → Entries → Prop where
  | stop {es : Entries} (h : es.length < bound) : Frees bound 0 es es
  | turn {turns : ℕ} {es room : Entries} (h : bound ≤ es.length)
      (hrest : Frees bound turns (giveUp es) room) : Frees bound (turns + 1) es room

/-- Entries that do not exceed the bound have room after one turn at most. -/
theorem frees_makeRoom (hkeys : (keys es).Nodup) (hb : 0 < bound) (hle : es.length ≤ bound) :
    ∃ turns ≤ 1, Frees bound turns es (makeRoom bound es) := by
  rcases hle.lt_or_eq with hlt | hfull
  · rw [makeRoom_of_lt hlt]
    exact ⟨0, Nat.zero_le 1, .stop hlt⟩
  · have hne : es ≠ [] := by
      intro heq
      subst heq
      exact hb.ne hfull
    obtain ⟨v, hv⟩ := victim?_isSome hne
    -- with one entry less there is room, so the search does not turn again
    have hlt : (erase es v.1).length < bound :=
      hfull ▸ length_erase_lt (mem_of_victim? hv)
    refine ⟨1, le_rfl, .turn hfull.ge ?_⟩
    rw [giveUp_of_victim? hv, makeRoom_of_victim? hfull.ge hv, makeRoom_of_lt hlt]
    exact .stop hlt

end Entries

variable {policy : Policy} {ops : List Op} {c c' : Cache} {k v : Key} {e : Entry} {now : Instant}
  {r : Reading} {n : ℕ} {es : Entries}

def reorder (c : Cache) (es : Entries) : Cache := { c with entries := es }

/-- The cache comes about by the operations, the earliest first; between them the order of its entries
may change in any way. -/
inductive Reached (policy : Policy) : List Op → Cache → Prop where
  | new : Reached policy [] (new policy)
  | apply {ops : List Op} {c : Cache} (op : Op) (h : Reached policy ops c) :
      Reached policy (ops ++ [op]) (op.apply c)
  | reorder {ops : List Op} {c : Cache} {es : Entries} (hes : es.Perm c.entries)
      (h : Reached policy ops c) : Reached policy ops (c.reorder es)

theorem item?_reorder (hes : es.Perm c.entries) (hkeys : (Entries.keys c.entries).Nodup) (j : Key) :
    (c.reorder es).item? j = c.item? j :=
  (Entries.find?_perm hes.symm hkeys j).symm

theorem Tidy.reorder (h : Tidy c) (hes : es.Perm c.entries) : Tidy (c.reorder es) :=
  h.of_le ((Entries.keys_perm hes).nodup_iff.2 h.keys) rfl hes.length_eq.le

theorem Tidy.apply (h : Tidy c) (op : Op) : Tidy (op.apply c) := by
  cases op with
  | put now k r => exact h.put now k r
  | get now k => exact h.get now k
  | invalidate k => exact h.invalidate k
  | clear => exact h.clear
  | contains | stats => exact h

theorem reached_after (policy : Policy) (ops : List Op) : Reached policy ops (after policy ops) := by
  induction ops using List.reverseRecOn with
  | nil => exact .new
  | append_singleton ops op ih =>
    rw [after_append]
    exact .apply op ih

theorem Reached.policy_eq (h : Reached policy ops c) : c.policy = policy.bounded := by
  induction h with
  | new => rfl
  | apply op _ ih => rw [policy_apply, ih]
  | reorder _ _ ih => exact ih

/-- Every cache that comes about by operations is tidy. -/
theorem Reached.tidy (h : Reached policy ops c) : Tidy c := by
  induction h with
  | new => exact tidy_new policy
  | apply op _ ih => exact ih.apply op
  | reorder hes _ ih => exact ih.reorder hes

/-- In such a cache the entries have numbers of their own, one for each reading stored. -/
theorem Reached.numbered (h : Reached policy ops c) (hz : policy.maxEntries ≠ some 0)
    (hstores : ops.countP Op.stores < UInt64.size) : Numbered c (ops.countP Op.stores) := by
  induction h with
  | new => exact numbered_new policy
  | apply op h ih =>
    rw [List.countP_append] at hstores ⊢
    refine numbered_apply (ih (by omega)) ?_ hstores
    rwa [h.policy_eq, Policy.bounded_maxEntries]
  | reorder hes h ih =>
    -- another order is still the same entries under the same keys
    have hn := ih hstores
    refine hn.of_sub (hn.toTidy.reorder hes) rfl ?_
    intro j f hf
    rw [item?_reorder hes hn.keys] at hf
    exact ⟨f, hf, rfl⟩

/-- Numbers that are all different leave no ties. -/
theorem Numbered.ranked (h : Numbered c n) : Entries.Ranked c.entries := by
  intro p hp q hq hrank
  have hp' : c.item? p.1 = some p.2 := Entries.find?_of_mem h.keys hp
  have hq' : c.item? q.1 = some q.2 := Entries.find?_of_mem h.keys hq
  have hkey : p.1 = q.1 := h.apart _ _ _ _ hp' hq' (Entry.sequence_eq_of_rank_eq hrank)
  have hentry : some p.2 = some q.2 := by rw [← hp', hkey, hq']
  exact Prod.ext hkey (Option.some.inj hentry)

/-- From `c` to `c'` the entry of `v`, the least in the order of giving up, has gone; apart from `k`
everything else is as it was. -/
structure Displaced (c c' : Cache) (k v : Key) (e : Entry) : Prop where
  held : c.item? v = some e
  least : ∀ j f, c.item? j = some f → e.rank ≤ f.rank
  gone : c'.item? v = none
  others : ∀ j, j ≠ k → j ≠ v → c'.item? j = c.item? j

/-- Other entries stay when the key is held already or there is room. -/
theorem item?_put_of_ne (hroom : c.contains k = true ∨
      ∀ b, c.policy.maxEntries = some b → c.size < b.toNat) {j : Key} (hj : j ≠ k) :
    (c.put now k r).item? j = c.item? j := by
  cases hk : c.contains k with
  | true => exact item?_put_of_held hk hj
  | false =>
    have hroom' := hroom.resolve_left (by simp [hk])
    rw [item?, put_of_room hk hroom', Entries.find?_cons, if_neg (Ne.symm hj), item?]

/-- A full cache gives up one entry for a new key. -/
theorem displaced_put (h : Tidy c) (hk : c.contains k = false) {b : UInt64}
    (hm : c.policy.maxEntries = some b) (hz : b ≠ 0) (hfull : b.toNat ≤ c.size) (now : Instant)
    (r : Reading) : ∃ v e, Displaced c (c.put now k r) k v e := by
  obtain ⟨v, e, hv, hleast, hput, _⟩ :=
    put_of_full now r h.keys hk hm hz (le_antisymm (h.bounded b hm) hfull)
  have hvk : v ≠ k := by
    intro heq
    subst heq
    rw [contains_eq, hv] at hk
    cases hk
  refine ⟨v, e, hv, hleast, ?_, ?_⟩
  · rw [item?, hput, Entries.find?_cons, if_neg (Ne.symm hvk), Entries.find?_erase, if_pos rfl]
  · intro j hjk hjv
    rw [item?, hput, Entries.find?_cons, if_neg (Ne.symm hjk), Entries.find?_erase, if_neg hjv, item?]

/-- Without ties the entry that goes is below all others. -/
theorem Displaced.lt (h : Displaced c c' k v e) (hn : Numbered c n) {j : Key} {f : Entry}
    (hj : j ≠ v) (hf : c.item? j = some f) : e.rank < f.rank := by
  refine lt_of_le_of_ne (h.least j f hf) ?_
  intro hrank
  exact hj (hn.apart j v f e hf h.held (Entry.sequence_eq_of_rank_eq hrank).symm)

/-- The order of the entries makes no difference to what is stored and what is given up. -/
theorem put_reorder (hes : es.Perm c.entries) (hn : Numbered c n) :
    ((c.reorder es).put now k r).entries.Perm (c.put now k r).entries := by
  have hranked : Entries.Ranked es := by
    intro p hp q hq
    exact hn.ranked p (hes.subset hp) q (hes.subset hq)
  -- the look-up does not depend on the order, so both go the same way
  have hfind := Entries.find?_perm hes.symm hn.keys k
  unfold put reorder
  dsimp only
  by_cases hz : c.policy.maxEntries = some 0
  · rwa [if_pos hz, if_pos hz]
  rw [if_neg hz, if_neg hz, ← hfind]
  by_cases hk : (Entries.find? c.entries k).isSome
  · rw [if_pos hk, if_pos hk]
    exact hes.map _
  · rw [if_neg hk, if_neg hk]
    apply List.Perm.cons
    cases hm : c.policy.maxEntries with
    | none => exact hes
    | some b => exact Entries.makeRoom_perm hes hranked b.toNat

structure Stored (c : Cache) (now : Instant) (k : Key) (r : Reading) : Prop where
  answer : (c.store now k r).1 = r
  kept : (c.store now k r).2.item? k = some
    { snapshot := r, createdAt := now, lastAccessedAt := now, accessCount := 0
      sequence := c.nextSequence }
  latest : ∀ j f, j ≠ k → (c.store now k r).2.item? j = some f → f.sequence < c.nextSequence
  /-- With room for the key nothing else changes. -/
  others : (c.contains k = true ∨ ∀ b, c.policy.maxEntries = some b → c.size < b.toNat) →
    ∀ j, j ≠ k → (c.store now k r).2.item? j = c.item? j
  /-- Without room exactly one entry goes, the only least one. -/
  displaced : c.contains k = false → ∀ b, c.policy.maxEntries = some b → b.toNat ≤ c.size →
    ∃ v e, Displaced c (c.store now k r).2 k v e ∧
      ∀ j f, j ≠ v → c.item? j = some f → e.rank < f.rank
  /-- The search for room ends, after one turn at most. -/
  turns : c.contains k = false → ∀ b, c.policy.maxEntries = some b →
    ∃ turns ≤ 1, ∃ room, Entries.Frees b.toNat turns c.entries room ∧
      (c.store now k r).2.entries = (k, .new r now c.nextSequence) :: room
  /-- In any other order of the entries the same one goes, and the same ones are left. -/
  anyOrder : ∀ es, es.Perm c.entries → Entries.victim? es = Entries.victim? c.entries ∧
    ((c.reorder es).store now k r).2.entries.Perm (c.store now k r).2.entries

/-- All of what `Stored` says holds where the entries have numbers of their own. -/
theorem stored (hn : Numbered c n) (hz : c.policy.maxEntries ≠ some 0) (now : Instant) (k : Key)
    (r : Reading) : Stored c now k r where
  answer := rfl
  kept := item?_put_self hz
  latest := by
    intro j f hj hf
    have hlt := hn.below j f (item?_of_put hj hf)
    rwa [← hn.next, ← UInt64.lt_iff_toNat_lt] at hlt
  others := by
    intro hroom j hj
    exact item?_put_of_ne hroom hj
  displaced := by
    intro hk b hm hfull
    have hb : b ≠ 0 := fun h0 => hz (h0 ▸ hm)
    obtain ⟨v, e, hgone⟩ := displaced_put hn.toTidy hk hm hb hfull now r
    exact ⟨v, e, hgone, fun j f hj hf => hgone.lt hn hj hf⟩
  turns := by
    intro hk b hm
    have hb : b ≠ 0 := fun h0 => hz (h0 ▸ hm)
    have hpos : 0 < b.toNat := Nat.pos_of_ne_zero fun h0 => hb (UInt64.toNat_inj.1 h0)
    -- the cache is within its bound, so there is one entry too many at most
    obtain ⟨turns, hle, hfrees⟩ := Entries.frees_makeRoom hn.keys hpos (hn.bounded b hm)
    refine ⟨turns, hle, _, hfrees, ?_⟩
    have hk' : (Entries.find? c.entries k).isSome = false := hk
    simp [store, put, hm, hb, hk']
  anyOrder := by
    intro es hes
    have hvictim := Entries.victim?_perm hes.symm hn.ranked
    exact ⟨hvictim.symm, put_reorder hes hn⟩

/-- **A new reading displaces at most the least entry.** In every state that a cache can reach, with its
entries in any order, it holds no more than its bound. With fewer than 2⁶⁴ readings stored so far and
room for any, storing one hands it back and keeps it under the highest number; the others stay as they
are, but for the only least one in the order of giving up, which goes if a new key finds the cache full. -/
theorem store_displaces_least (h : Reached policy ops c) :
    (∀ b, policy.maxEntries = some b → c.size ≤ b.toNat) ∧
    (policy.maxEntries ≠ some 0 → ops.countP Op.stores < UInt64.size →
      ∀ now k r, Stored c now k r) := by
  have hmax : c.policy.maxEntries = policy.maxEntries := by
    rw [h.policy_eq, Policy.bounded_maxEntries]
  constructor
  · intro b hb
    exact h.tidy.bounded b (hmax.trans hb)
  · intro hz hstores now k r
    exact stored (h.numbered hz hstores) (hmax ▸ hz) now k r

def twoStored : List Op := [.put 0 (.device 1) .sentinel, .put 5 (.device 2) .sentinel]

/-- A cache for two holds two, and meets the earlier one first; a third makes it give that one up. -/
theorem store_displaces_least_of_full :
    ∃ c, Reached ⟨500, some 2⟩ twoStored c ∧ c.entries.map Prod.fst = [.device 1, .device 2] ∧
      (c.store 9 (.device 3) .sentinel).2.item? (.device 1) = none := by
  have hfirst : ((new ⟨500, some 2⟩).put 0 (.device 1) .sentinel).entries =
      [(.device 1, .new .sentinel 0 0)] := by
    refine put_of_room rfl ?_
    intro b hb
    cases hb
    decide
  have hboth : (after ⟨500, some 2⟩ twoStored).entries =
      [(.device 2, .new .sentinel 5 1), (.device 1, .new .sentinel 0 0)] := by
    change (((new ⟨500, some 2⟩).put 0 (.device 1) .sentinel).put 5 (.device 2) .sentinel).entries = _
    rw [put_of_room, hfirst, nextSequence_put (by decide)]
    · rfl
    · rw [contains, hfirst]
      decide
    · intro b hb
      rw [policy_put] at hb
      cases hb
      rw [size, hfirst]
      decide
  have hswap : [(.device 1, .new .sentinel 0 0), (.device 2, .new .sentinel 5 1)].Perm
      (after ⟨500, some 2⟩ twoStored).entries := hboth ▸ List.Perm.swap _ _ _
  have hreached := (reached_after ⟨500, some 2⟩ twoStored).reorder hswap
  obtain ⟨v, e, hgone, hleast⟩ :=
    ((store_displaces_least hreached).2 (by decide) (by decide) 9 (.device 3) .sentinel).displaced
      (by decide) 2 (by rw [hreached.policy_eq]; decide) (by decide)
  refine ⟨_, hreached, rfl, ?_⟩
  -- of the two it can only be the first that has gone
  rcases List.mem_pair.1 (Entries.mem_of_find? hgone.held) with hv | hv
  · cases hv
    exact hgone.gone
  · cases hv
    have hlt := hleast (.device 1) (.new .sentinel 0 0) (by decide) rfl
    exact absurd ((Entry.before_iff _ _).2 hlt) (by decide)

end GpuTelemetry.Cache
