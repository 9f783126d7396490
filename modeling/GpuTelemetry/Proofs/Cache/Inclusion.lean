import GpuTelemetry.Proofs.Cache.Eviction
import GpuTelemetry.Proofs.Cache.History
/-!
A larger cache holds whatever a smaller one holds. Under the same history the two agree on the keys of
the smaller, and the larger never has more entries beyond those than its bound allows; so whenever the
larger has to give an entry up, the smaller is full as well, and gives up that entry or one that the
larger keeps.
-/

namespace GpuTelemetry.Cache

def Op.stores : Op → Bool
  | put _ _ _ => true
  | _ => false

variable {policy : Policy} {ops : List Op} {op : Op} {small large : Cache} {n : ℕ}

theorem numbered_apply {c : Cache} (h : Numbered c n) (hz : c.policy.maxEntries ≠ some 0)
    (hn : n + [op].countP Op.stores < UInt64.size) :
    Numbered (op.apply c) (n + [op].countP Op.stores) := by
  cases op with
  | put now k r => exact numbered_put h hz hn now k r
  | get now k => exact numbered_get h now k
  | invalidate k => exact numbered_invalidate h k
  | clear => exact numbered_clear h
  | contains | stats => exact h

/-- The entries are numbered as long as fewer than 2⁶⁴ readings have been stored. -/
theorem numbered_after (policy : Policy) (hz : policy.maxEntries ≠ some 0)
    (hn : ops.countP Op.stores < UInt64.size) :
    Numbered (after policy ops) (ops.countP Op.stores) := by
  induction ops using List.reverseRecOn with
  | nil => exact numbered_new policy
  | append_singleton ops op ih =>
    rw [List.countP_append] at hn ⊢
    rw [after_append, List.foldl_cons, List.foldl_nil]
    exact numbered_apply (ih (by omega)) (by simpa [policy_after] using hz) hn

/-- What the smaller cache holds the larger one holds too, entry by entry, and the larger has not
filled more than the difference of the bounds with other keys. -/
structure Inside (n₁ : UInt64) (n₂ : Option UInt64) (small large : Cache) : Prop where
  agree : ∀ k e, small.item? k = some e → large.item? k = some e
  surplus : ∀ b ∈ n₂, large.size + n₁.toNat ≤ small.size + b.toNat

theorem Inside.contains {n₁ : UInt64} {n₂ : Option UInt64} (h : Inside n₁ n₂ small large) {k : Key}
    (hk : small.contains k = true) : large.contains k = true := by
  obtain ⟨e, he⟩ := Option.isSome_iff_exists.1 hk
  exact Option.isSome_iff_exists.2 ⟨e, h.agree k e he⟩

theorem inside_of_empty {n₁ : UInt64} {n₂ : Option UInt64} (hle : ∀ b ∈ n₂, n₁ ≤ b)
    (hs : small.entries = []) (hl : large.entries = []) : Inside n₁ n₂ small large := by
  refine ⟨fun k e he => ?_, fun b hb => ?_⟩
  · simp [item?, hs, Entries.find?] at he
  · simpa [size, hs, hl] using UInt64.le_iff_toNat_le.1 (hle b hb)

section Step

variable {n₁ : UInt64} {n₂ : Option UInt64} (hs : Numbered small n) (hl : Numbered large n)
  (h : Inside n₁ n₂ small large)

include hs hl h

theorem inside_invalidate (k : Key) : Inside n₁ n₂ (small.invalidate k) (large.invalidate k) := by
  refine ⟨fun j e he => ?_, fun b hb => ?_⟩
  · rw [item?_invalidate] at he ⊢
    by_cases hj : j = k
    · simp [hj] at he
    · simp only [hj, if_false] at he ⊢
      exact h.agree j e he
  · -- what goes from the smaller one goes from the larger one as well
    have h1 := size_invalidate (k := k) hs.keys
    have h2 := size_invalidate (k := k) hl.keys
    have hsize := h.surplus b hb
    by_cases hk : small.contains k
    · simp only [hk, h.contains hk, if_true] at h1 h2
      omega
    · simp only [hk] at h1
      simp only [Bool.false_eq_true, if_false] at h1
      omega

/-- A look-up finds an entry fresh in both caches or in neither. -/
theorem inside_get (httl : small.policy.ttl = large.policy.ttl) (now : Instant) (k : Key) :
    Inside n₁ n₂ (small.get now k).2 (large.get now k).2 := by
  cases hk : small.item? k with
  | none =>
    rw [get_of_absent hk]
    refine ⟨fun j e he => ?_, fun b hb => ?_⟩
    · rw [item?_get, if_neg, h.agree j e he]
      intro heq
      subst heq
      simp [hk] at he
    · exact (Nat.add_le_add_right (size_get_le hl.keys now k) _).trans (h.surplus b hb)
  | some e =>
    have hk' := h.agree k e hk
    -- the entry is the same in both, and with it its age
    cases hf : e.isFresh now small.policy.ttl with
    | false =>
      rw [get_of_expired hk hf, get_of_expired hk' (httl ▸ hf)]
      exact inside_invalidate hs hl h k
    | true =>
      refine ⟨fun j f hj => ?_, fun b hb => ?_⟩
      · rw [item?_get, hk', ← httl]
        rw [item?_get, hk] at hj
        by_cases hjk : j = k
        · simpa [hjk] using hj
        · simp only [hjk, if_false] at hj ⊢
          exact h.agree j f hj
      · rw [get_of_fresh hk hf, get_of_fresh hk' (httl ▸ hf)]
        simp only [size, Entries.length_replace]
        exact h.surplus b hb

/-- What the smaller cache keeps when a new key is stored, a full larger one keeps as well. -/
theorem ne_victim (hm : small.policy.maxEntries = some n₁) (hn₁ : n₁ ≠ 0) {b : UInt64} (hb : b ∈ n₂)
    (hfull : large.size = b.toNat) {k j v : Key} {e f : Entry} {now : Instant} {r : Reading}
    (hk : small.contains k = false) (hjk : j ≠ k) (hj : (small.put now k r).item? j = some f)
    (hv : large.item? v = some e) (hle : ∀ i g, large.item? i = some g → e.rank ≤ g.rank) :
    j ≠ v := by
  have hsize := h.surplus b hb
  have hbound := hs.bounded n₁ hm
  obtain ⟨w, g, hw, hmin, hentries, _⟩ := put_of_full now r hs.keys hk hm hn₁ (by omega)
  intro heq
  subst heq
  have hold := item?_of_put hjk hj
  have hef : e = f := Option.some.inj (hv.symm.trans (h.agree j f hold))
  -- then it is least in both caches, so the smaller one gave it up too
  have hrank : e.rank = g.rank :=
    le_antisymm (hle w g (h.agree w g hw)) (hef ▸ hmin j f hold)
  have hjw : j = w := hl.apart j w e g hv (h.agree w g hw) (Entry.sequence_eq_of_rank_eq hrank)
  rw [item?, hentries, Entries.find?_cons, if_neg (Ne.symm hjk), Entries.find?_erase,
    if_pos hjw] at hj
  cases hj

/-- After storing, what the smaller cache holds the larger one still holds. -/
theorem agree_put (hm₁ : small.policy.maxEntries = some n₁) (hm₂ : large.policy.maxEntries = n₂)
    (hz₁ : small.policy.maxEntries ≠ some 0) (hz₂ : large.policy.maxEntries ≠ some 0)
    (now : Instant) (k : Key) (r : Reading) {j : Key} {e : Entry}
    (he : (small.put now k r).item? j = some e) : (large.put now k r).item? j = some e := by
  have hnext : small.nextSequence = large.nextSequence :=
    UInt64.toNat_inj.1 (hs.next.trans hl.next.symm)
  by_cases hj : j = k
  · subst hj
    rw [item?_put_self hz₁, hnext] at he
    rw [item?_put_self hz₂, he]
  have hold := h.agree j e (item?_of_put hj he)
  rcases put_cases hl.toTidy hz₂ k with hk | ⟨hk, hroom⟩ | ⟨hk, b, hm, hb, hfull⟩
  · rw [item?_put_of_held hk hj, hold]
  · rw [item?, put_of_room hk hroom, Entries.find?_cons, if_neg (Ne.symm hj)]
    exact hold
  · -- what the larger cache does not hold the smaller one does not hold either
    have hks : small.contains k = false := by
      by_contra hks
      rw [h.contains (by simpa using hks)] at hk
      cases hk
    have hn₁ : n₁ ≠ 0 := by simpa [hm₁] using hz₁
    obtain ⟨v, g, hv, hmin, hentries, _⟩ := put_of_full now r hl.keys hk hm hb hfull
    -- the victim of the larger cache is not among what the smaller one keeps
    have hjv := ne_victim hs hl h hm₁ hn₁ (hm₂ ▸ hm) hfull hks hj he hv hmin
    rw [item?, hentries, Entries.find?_cons, if_neg (Ne.symm hj), Entries.find?_erase, if_neg hjv]
    exact hold

/-- After storing, the larger cache holds no more beyond the smaller one than the bounds differ by. -/
theorem surplus_put (hm₁ : small.policy.maxEntries = some n₁) (hm₂ : large.policy.maxEntries = n₂)
    (hz₁ : small.policy.maxEntries ≠ some 0) (hz₂ : large.policy.maxEntries ≠ some 0)
    (now : Instant) (k : Key) (r : Reading) {b : UInt64} (hb : b ∈ n₂) :
    (large.put now k r).size + n₁.toNat ≤ (small.put now k r).size + b.toNat := by
  have hsize := h.surplus b hb
  have hsmall := le_size_put hs.toTidy hz₁ now k r
  rcases put_cases hl.toTidy hz₂ k with hk | ⟨hk, hroom⟩ | ⟨hk, b', hm, hb', hfull⟩
  · rw [size_put_of_held hk]
    omega
  · have hlt := hroom b (hm₂ ▸ hb)
    rw [size_put_of_room hk hroom]
    -- the larger cache grows, so the smaller one has to grow with it or be full
    rcases put_cases hs.toTidy hz₁ k with hk₁ | ⟨hk₁, hroom₁⟩ | ⟨_, b₁, hm', _, hfull₁⟩
    · rw [h.contains hk₁] at hk
      cases hk
    · rw [size_put_of_room hk₁ hroom₁]
      omega
    · cases hm₁.symm.trans hm'
      omega
  · obtain ⟨_, _, _, _, _, hlarge⟩ := put_of_full now r hl.keys hk hm hb' hfull
    omega

/-- Storing the same reading in both keeps the inclusion. -/
theorem inside_put (hm₁ : small.policy.maxEntries = some n₁) (hm₂ : large.policy.maxEntries = n₂)
    (hn₁ : n₁ ≠ 0) (hle : ∀ b ∈ n₂, n₁ ≤ b) (now : Instant) (k : Key) (r : Reading) :
    Inside n₁ n₂ (small.put now k r) (large.put now k r) := by
  have hz₁ : small.policy.maxEntries ≠ some 0 := by simpa [hm₁] using hn₁
  have hz₂ : large.policy.maxEntries ≠ some 0 := by
    rw [hm₂]
    intro h0
    exact hn₁ (UInt64.le_antisymm (hle 0 h0) (UInt64.zero_le))
  exact ⟨fun _ _ he => agree_put hs hl h hm₁ hm₂ hz₁ hz₂ now k r he,
    fun _ hb => surplus_put hs hl h hm₁ hm₂ hz₁ hz₂ now k r hb⟩

end Step

section History

variable {ttl : Millis} {n₁ : UInt64} {n₂ : Option UInt64}

theorem bounded_ttl_congr {p q : Policy} (h : p.ttl = q.ttl) : p.bounded.ttl = q.bounded.ttl := by
  rw [← Int64.toInt_inj, p.toInt_bounded_ttl, q.toInt_bounded_ttl, h]

/-- The same history leads to caches of which one is inside of the other. -/
theorem inside_after (ttl : Millis) (hn₁ : n₁ ≠ 0) (hle : ∀ b ∈ n₂, n₁ ≤ b)
    (hstores : ops.countP Op.stores < UInt64.size) :
    Inside n₁ n₂ (after ⟨ttl, some n₁⟩ ops) (after ⟨ttl, n₂⟩ ops) := by
  have hz₁ : (some n₁ : Option UInt64) ≠ some 0 := by simpa using hn₁
  have hz₂ : n₂ ≠ some 0 := fun h0 =>
    hn₁ (UInt64.le_antisymm (hle 0 (by simp [h0])) UInt64.zero_le)
  induction ops using List.reverseRecOn with
  | nil => exact inside_of_empty hle rfl rfl
  | append_singleton ops op ih =>
    rw [List.countP_append] at hstores
    have h := ih (by omega)
    -- each store has a number of its own, the same one in both caches
    have hs := numbered_after ⟨ttl, some n₁⟩ hz₁ (by omega : ops.countP _ < _)
    have hl := numbered_after ⟨ttl, n₂⟩ hz₂ (by omega : ops.countP _ < _)
    simp only [after_append, List.foldl_cons, List.foldl_nil]
    cases op with
    | put now k r =>
      exact inside_put hs hl h (by simp [policy_after]) (by simp [policy_after]) hn₁ hle now k r
    | get now k =>
      exact inside_get hs hl h (by simp only [policy_after]; exact bounded_ttl_congr rfl) now k
    | invalidate k => exact inside_invalidate hs hl h k
    | clear => exact inside_of_empty hle rfl rfl
    | contains | stats => exact h

/-- **A larger bound never makes a cache do worse.** Under every history, with any clock, what the
cache with the smaller bound holds the one with the larger bound (or none) holds too, and whenever the
smaller one answers a look-up the larger one gives the same answer. -/
theorem larger_bound_answers_as_well (hle : ∀ b ∈ n₂, n₁ ≤ b)
    (hstores : ops.countP Op.stores < UInt64.size) (k : Key) :
    ((after ⟨ttl, some n₁⟩ ops).contains k = true → (after ⟨ttl, n₂⟩ ops).contains k = true) ∧
    ∀ now r, ((after ⟨ttl, some n₁⟩ ops).get now k).1 = some r →
      ((after ⟨ttl, n₂⟩ ops).get now k).1 = some r := by
  -- a cache of bound zero answers nothing, so it need not be inside of the other
  by_cases hn₁ : n₁ = 0
  · have hempty : (after ⟨ttl, some n₁⟩ ops).item? k = none := item?_after_of_no_room (by rw [hn₁]) k
    simp [contains_eq, get_eq, hempty]
  · have h := inside_after ttl hn₁ hle hstores
    refine ⟨h.contains, fun now r hget => ?_⟩
    rw [get_eq, policy_after] at hget ⊢
    obtain ⟨e, he, hr⟩ := Option.map_eq_some_iff.1 hget
    obtain ⟨he, hf⟩ := Option.filter_eq_some_iff.1 he
    have httl : (Policy.mk ttl n₂).bounded.ttl = (Policy.mk ttl (some n₁)).bounded.ttl :=
      bounded_ttl_congr rfl
    rw [h.agree k e he, httl]
    simp [Option.filter, hf, hr]

end History

/-- A cache for one reading and one for two, after two have been stored. -/
theorem larger_bound_answers_as_well_of_full :
    (1 : UInt64) ≤ 2 ∧
    (after ⟨500, some 2⟩ [.put 0 (.device 1) .sentinel, .put 5 (.device 2) .sentinel]).contains
      (.device 2) = true := by
  have hz : (after ⟨500, some 1⟩ [.put 0 (.device 1) .sentinel]).policy.maxEntries ≠ some 0 := by
    rw [policy_after]
    decide
  have hsmall : (after ⟨500, some 1⟩
      [.put 0 (.device 1) .sentinel, .put 5 (.device 2) .sentinel]).contains (.device 2) = true :=
    congrArg Option.isSome (item?_put_self hz)
  exact ⟨by decide, (larger_bound_answers_as_well (by simp) (by decide) (.device 2)).1 hsmall⟩

end GpuTelemetry.Cache
