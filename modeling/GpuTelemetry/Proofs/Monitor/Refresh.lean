import GpuTelemetry.Proofs.Cache.Storing
import GpuTelemetry.Proofs.Monitor.Provenance

namespace GpuTelemetry.Monitor

open Job (Ends ends_pure ends_bind)

variable {β : Type} {s s' : Monitor β} {i : UInt64} {k : Cache.Key} {v : Visit} {a : Answer}

def forget (i : UInt64) (s : Monitor β) : Cache :=
  if i = s.inventory.primaryIndex then (s.cache.invalidate (.device i)).invalidate .primary
  else s.cache.invalidate (.device i)

/-- What an explicit refresh of device `i` with the answer `a` makes of `s`. -/
structure Supersedes (i : UInt64) (s : Monitor β) (a : Answer) (s' : Monitor β) : Prop where
  device : ∀ e, s'.cache.item? (.device i) = some e → a.snapshot = some e.snapshot
  primary : i = s.inventory.primaryIndex → s'.cache.item? .primary = none
  /-- What stands for other devices is as it was, unless a success found the cache still full and
  displaced the least entry. -/
  others : (∀ k, indexOf s.inventory k ≠ i → s'.cache.item? k = s.cache.item? k) ∨
    a.status = .ok ∧
      (∃ b, s.cache.policy.maxEntries = some b ∧ b ≠ 0 ∧ (forget i s).size = b.toNat) ∧
      ∃ v e, (forget i s).Displaced s'.cache (.device i) v e
  failed : a.status ≠ .ok → s'.inventory = s.inventory ∧ s'.cache = forget i s

/-! ### One refresh -/

theorem indexOf_eq_iff {inv : Inventory} (hi : Cache.Key.device i ≠ .primary) :
    indexOf inv k = i ↔ k = .device i ∨ k = .primary ∧ i = inv.primaryIndex := by
  by_cases hk : k = .primary
  · subst hk
    rw [indexOf_primary]
    constructor
    · intro h
      exact Or.inr ⟨rfl, h.symm⟩
    · rintro (h | ⟨-, h⟩)
      · exact absurd h.symm hi
      · exact h.symm
  · have hvalue : indexOf inv k = k.value := indexOf_device (i := k.value) hk
    rw [hvalue]
    constructor
    · intro h
      exact Or.inl (congrArg Cache.Key.mk h)
    · rintro (h | ⟨h, -⟩)
      · exact congrArg Cache.Key.value h
      · exact absurd h hk

/-- The keys that stand for a device are free, the others are as before. -/
theorem item?_forget (hi : Cache.Key.device i ≠ .primary) (k : Cache.Key) :
    (forget i s).item? k = if indexOf s.inventory k = i then none else s.cache.item? k := by
  simp only [indexOf_eq_iff hi]
  unfold forget
  by_cases hp : i = s.inventory.primaryIndex
  · rw [if_pos hp, Cache.item?_invalidate, Cache.item?_invalidate]
    subst hp
    by_cases hk : k = .primary <;> simp [hk]
  · rw [if_neg hp, Cache.item?_invalidate]
    simp [hp]

theorem tidy_forget (h : s.cache.Tidy) (i : UInt64) : (forget i s).Tidy := by
  unfold forget
  split
  · exact (h.invalidate _).invalidate _
  · exact h.invalidate _

theorem policy_forget : (forget i s).policy = s.cache.policy := by
  unfold forget
  split <;> rfl

/-- Both ways of asking for a refresh drop the same keys, and store under that of the device. -/
theorem opening_of_refresh {q : Query} {slot : Slot}
    (hq : q = .refresh i ∨ q = .refreshPrimary ∧ i = s.inventory.primaryIndex)
    (hslot : s.inventory.slot? i = some slot) (now : Instant) :
    q.opening now s = (.pending ⟨.device i, slot⟩, { s with cache := forget i s }) := by
  have hindex : slot.index = i := (Inventory.slot?_eq_some.1 hslot).2.1
  rcases hq with rfl | ⟨rfl, hp⟩
  · have hanswer : (openRefresh i s).1 = .ofSlot (.device i) (s.inventory.slot? i) := by
      rcases openRefresh_cases i s with ho | ho <;> rw [ho]
    have hstate : (openRefresh i s).2 = { s with cache := forget i s } := by
      by_cases hp : i = s.inventory.primaryIndex
      · rw [forget, if_pos hp]
        exact if_pos hp
      · rw [forget, if_neg hp]
        exact if_neg hp
    refine Prod.ext ?_ hstate
    rw [Query.opening, hanswer, hslot, Opening.ofSlot]
  · have hslot' : s.inventory.primarySlot? = some slot := by rwa [Inventory.primarySlot?, ← hp]
    simp only [Query.opening, openRefreshPrimary, hslot', hindex, forget, if_pos hp, invalidate]

theorem forget_device (hi : Cache.Key.device i ≠ .primary) :
    (forget i s).item? (.device i) = none := by
  rw [item?_forget hi, if_pos (indexOf_device hi)]

theorem forget_primary (hi : Cache.Key.device i ≠ .primary) (hp : i = s.inventory.primaryIndex) :
    (forget i s).item? .primary = none := by
  rw [item?_forget hi, if_pos (by rw [indexOf_primary, hp])]

/-- After a refresh that fails nothing is cached of the device. -/
theorem supersedes_of_failure (hi : Cache.Key.device i ≠ .primary) (a : Answer) :
    Supersedes i s a { s with cache := forget i s } where
  device := by
    intro e he
    rw [forget_device hi] at he
    cases he
  primary := forget_primary hi
  others := by
    apply Or.inl
    intro k hk
    rw [item?_forget hi, if_neg hk]
  failed := fun _ => ⟨rfl, rfl⟩

/-- Storing a new reading of a device that was dropped leaves the others, or displaces one of them. -/
theorem others_of_put (hi : Cache.Key.device i ≠ .primary) (htidy : s.cache.Tidy)
    (hz : (forget i s).policy.maxEntries ≠ some 0) (fresh : Reading) (now : Instant) :
    (∀ k, indexOf s.inventory k ≠ i →
      ((forget i s).put now (.device i) fresh).item? k = s.cache.item? k) ∨
    (∃ b, s.cache.policy.maxEntries = some b ∧ b ≠ 0 ∧ (forget i s).size = b.toNat) ∧
      ∃ v e, (forget i s).Displaced ((forget i s).put now (.device i) fresh) (.device i) v e := by
  -- with room nothing but the key itself changes
  have hkeep (hroom : (forget i s).contains (.device i) = true ∨
      ∀ b, (forget i s).policy.maxEntries = some b → (forget i s).size < b.toNat) (k : Cache.Key)
      (hk : indexOf s.inventory k ≠ i) :
      ((forget i s).put now (.device i) fresh).item? k = s.cache.item? k := by
    have hne : k ≠ .device i := by
      intro heq
      exact hk (heq ▸ indexOf_device hi)
    rw [Cache.item?_put_of_ne hroom hne, item?_forget hi, if_neg hk]
  have htidy' : (forget i s).Tidy := tidy_forget htidy i
  rcases Cache.put_cases htidy' hz (.device i) with hk | ⟨-, hroom⟩ | ⟨hk, b, hm, hb, hfull⟩
  · exact Or.inl (hkeep (Or.inl hk))
  · exact Or.inl (hkeep (Or.inr hroom))
  · refine Or.inr ⟨⟨b, ?_, hb, hfull⟩, Cache.displaced_put htidy' hk hm hb hfull.ge now fresh⟩
    rwa [policy_forget] at hm

/-- After a refresh that succeeds its reading is cached and nothing older. -/
theorem supersedes_of_success (hi : Cache.Key.device i ≠ .primary) (htidy : s.cache.Tidy)
    (inv : Inventory) (fresh : Reading) (now : Instant) :
    Supersedes i s (.fresh fresh)
      { s with inventory := inv, cache := (forget i s).put now (.device i) fresh } := by
  have hok : (Answer.fresh fresh).status = .ok := rfl
  by_cases hz : (forget i s).policy.maxEntries = some 0
  -- a cache without room for anything is left as a failure leaves it
  · rw [Cache.put_of_no_room hz]
    have h := supersedes_of_failure (s := s) hi (.fresh fresh)
    exact ⟨h.device, h.primary, h.others, fun hbad => absurd hok hbad⟩
  · refine ⟨?_, ?_, ?_, fun hbad => absurd hok hbad⟩
    · intro e he
      rw [Cache.item?_put_self hz] at he
      cases he
      rfl
    -- the reading is stored under the key of the device, so nothing comes back under the other one
    · intro hp
      apply Option.eq_none_iff_forall_ne_some.2
      intro e he
      have hold := Cache.item?_of_put hi.symm he
      rw [forget_primary hi hp] at hold
      cases hold
    · exact (others_of_put hi htidy hz fresh now).imp_right fun h => ⟨hok, h⟩

/-- Whichever way the refresh goes, it supersedes. -/
theorem supersedes_of_does (htidy : s.cache.Tidy) (hsize : s.inventory.size < UInt64.size)
    (hi : i.toNat < s.inventory.size)
    (hq : v.query = .refresh i ∨ v.query = .refreshPrimary ∧ i = s.inventory.primaryIndex)
    (hv : v.Does s s') : Supersedes i s v.answer s' := by
  have hne : Cache.Key.device i ≠ .primary := device_ne_primary hi hsize
  obtain ⟨slot, hslot⟩ : ∃ slot, s.inventory.slot? i = some slot := by
    rw [Inventory.slot?, Inventory.get?, List.getElem?_eq_getElem hi]
    exact ⟨_, rfl⟩
  have hopen := opening_of_refresh hq hslot v.looked
  cases hv with
  | answered a ho hc =>
    rw [hopen] at ho
    -- a refresh of a device that is there always asks the registry
    cases ho
  | refreshed p fresh now ho hc =>
    rw [hopen] at ho ⊢
    cases ho
    have hanswer : v.answer = .fresh fresh := by rw [Visit.answer, hc, Course.answer]
    rw [hanswer, publish_of_slot? (s := { s with cache := forget i s }) hslot]
    exact supersedes_of_success hne htidy _ fresh now
  | failed p status ho hc hstatus =>
    rw [hopen]
    exact supersedes_of_failure hne v.answer

/-! ### The next query -/

/-- A query whose key is not held is not answered from the cache. -/
theorem not_fromCache_of_does (hv : v.Does s s')
    (hk : s.cache.held? (v.query.key s.inventory) = none) : v.answer.fromCache = false := by
  cases hv with
  | answered a ho hc =>
    rw [Visit.answer, hc]
    rcases answered_of_opening ho with ⟨x, hx, -⟩ | ⟨-, rfl⟩
    · rw [hk] at hx
      cases hx
    · cases v.query <;> rfl
  | refreshed p fresh now ho hc =>
    rw [Visit.answer, hc]
    rfl
  | failed p status ho hc hstatus =>
    rw [Visit.answer, hc]
    rfl

theorem indexOf_key (q : Query) {inv : Inventory} (hi : Cache.Key.device (q.index inv) ≠ .primary) :
    indexOf inv (q.key inv) = q.index inv := by
  cases q with
  | cached j | refresh j | refreshPrimary => exact indexOf_device hi
  | cachedPrimary => exact indexOf_primary

/-! ### Histories -/

section Histories

open Traffic (after)

variable {reg : Registry β} {policy : Cache.Policy}

theorem tidy_opening (h : s.cache.Tidy) (q : Query) (now : Instant) :
    (q.opening now s).2.cache.Tidy := by
  -- whatever a query does to the cache in its first step, it only looks and removes
  cases q with
  | cached i =>
    rw [Query.opening, cache_openCached]
    exact h.get now _
  | cachedPrimary =>
    rw [Query.opening, cache_openPrimary]
    exact h.get now _
  | refresh i =>
    rcases openRefresh_cases i s with ho | ho
    · rw [Query.opening, ho]
      exact h.invalidate _
    · rw [Query.opening, ho]
      exact (h.invalidate _).invalidate _
  | refreshPrimary =>
    rw [Query.opening, openRefreshPrimary]
    split
    · exact h
    · exact (h.invalidate _).invalidate _

/-- No event leaves a cache untidy. -/
theorem tidy_step {t t' : Traffic β} {ev : Event} (h : t.monitor.cache.Tidy)
    (hs : t.step ev = some t') : t'.monitor.cache.Tidy := by
  cases stepped hs with
  | opens q now => exact tidy_opening h q now
  -- the only event that stores
  | @publishes id p fresh now hp hcurrent hlt => exact h.put now p.key fresh
  | selects i hlt => exact h.invalidate _
  | reinstalls found | empties => exact h.clear
  | _ => exact h

/-- The cache of a monitor stays tidy in every history. -/
theorem tidy_after {es : List Event} {t : Traffic β} (h : after reg policy es = some t) :
    t.monitor.cache.Tidy := by
  induction es using List.reverseRecOn generalizing t with
  | nil =>
    cases h
    exact Cache.tidy_new policy
  | append_singleton es ev ih =>
    obtain ⟨t₀, h₀, hs⟩ := after_snoc_eq_some h
    exact tidy_step (ih h₀) hs

end Histories

/-! ### Runs -/

section Runs

variable {σ : Type}

theorem countAfter_eq [BackendCalls β (Job (Shared β σ))] [Surroundings σ] (ops : List Operation) :
    (countAfter ops : Job (Shared β σ) ℕ) = operate ops >>= fun _ => count := by
  induction ops with
  | nil => rfl
  | cons op ops ih => rw [countAfter, operate, ih, bind_assoc]

variable [BackendCalls β (StateM σ)] [Surroundings σ] {w w₁ : Shared β σ}

/-- On a new monitor operations come to an end, and nobody has the lock then. -/
theorem ends_operate (reg : Registry β) (policy : Cache.Policy) (ops : List Operation) (o : σ) :
    Ends (operate ops : Job (Shared β σ) Unit) { monitor := new reg policy, outside := o }
      fun _ w => w.detecting = false := by
  obtain ⟨vs, w, hvisits, hfree, -⟩ :=
    ends_allVisits (w := { monitor := new reg policy, outside := o }) rfl
      (provided_new reg policy) ops
  exact ⟨(), w, run_operate hvisits, hfree⟩

/-- A count comes to an end where a query begins: with a stored detection. -/
theorem ends_count (hfree : w.detecting = false) :
    Ends (count : Job (Shared β σ) ℕ) w fun n w₁ => n = w₁.monitor.inventory.size ∧
      (ensureDetected : Job (Shared β σ) Unit).run w = some ((), w₁) := by
  apply ends_bind
  refine (ends_ready hfree).run_eq.mono ?_
  intro u w₁ hready
  exact ends_bind (Shared.ends_get (ends_pure ⟨rfl, hready.1⟩))

/-- A query comes to an end, and has done what its course says. -/
theorem ends_perform_does (hfree : w.detecting = false)
    (hready : (ensureDetected : Job (Shared β σ) Unit).run w = some ((), w₁)) (q : Query) :
    Ends (q.perform : Job (Shared β σ) Answer) w fun a w' => w'.detecting = false ∧
      ∃ v : Visit, v.query = q ∧ v.answer = a ∧ v.Does w₁.monitor w'.monitor := by
  obtain ⟨v, w', hvisit, hv, hfree', w₂, hready', hdoes⟩ := ends_visit hfree q
  rw [hready] at hready'
  cases hready'
  exact ⟨v.answer, w', run_perform hvisit, hfree', v, hv, rfl, hdoes⟩

/-- **An explicit refresh leaves nothing older behind.** After any operations, with every registry and
any behaviour of its backends, a refresh of a device that a count would include comes to an end. However
it ends, nothing but its answer is cached under the key of the device, and nothing under that of the
primary one if it is the same. All other entries are as they were, but that a success may displace the
least of them if the cache is full without the device. A failure leaves the collection as it is, and the
next query of the device, also as the primary one, is not answered from the cache. -/
theorem refresh_leaves_nothing_older (reg : Registry β) (policy : Cache.Policy)
    (ops : List Operation) (o : σ) :
    ∃ w n w₁, (operate ops : Job (Shared β σ) Unit).run { monitor := new reg policy, outside := o } =
        some ((), w) ∧
      (count : Job (Shared β σ) ℕ).run w = some (n, w₁) ∧
      (n < UInt64.size → ∀ (i : UInt64) (q : Query), i.toNat < n →
        (q = .refresh i ∨ q = .refreshPrimary ∧ i = w₁.monitor.inventory.primaryIndex) →
        ∃ a w', (q.perform : Job (Shared β σ) Answer).run w = some (a, w') ∧
          Supersedes i w₁.monitor a w'.monitor ∧
          (a.status ≠ .ok → ∀ next : Query, next.index w₁.monitor.inventory = i →
            ∃ a' w'', (next.perform : Job (Shared β σ) Answer).run w' = some (a', w'') ∧
              a'.fromCache = false)) := by
  obtain ⟨_, w, hrun, hfree⟩ := ends_operate reg policy ops o
  obtain ⟨n, w₁, hcount, rfl, hready⟩ := ends_count hfree
  refine ⟨w, _, w₁, hrun, hcount, ?_⟩
  intro hsize i q hi hq
  have htidy : w₁.monitor.cache.Tidy := by
    have hall : (countAfter ops : Job (Shared β σ) ℕ).run { monitor := new reg policy, outside := o } =
        some (w₁.monitor.inventory.size, w₁) := by
      rw [countAfter_eq, Job.run_bind, hrun, Option.bind_some, hcount]
    obtain ⟨es, t, ht, hmonitor⟩ := history_of_run (keeps_countAfter behaved_of_outside ops) hall
    exact hmonitor ▸ tidy_after ht
  obtain ⟨a, w', hperform, hfree', v, rfl, rfl, hdoes⟩ := ends_perform_does hfree hready q
  have hsup := supersedes_of_does htidy hsize hi hq hdoes
  refine ⟨v.answer, w', hperform, hsup, ?_⟩
  intro hbad next hnext
  -- the failure has left the collection, so the next query asks for the device by the same key
  obtain ⟨hinv, hcache⟩ := hsup.failed hbad
  have hne : Cache.Key.device i ≠ .primary := device_ne_primary hi hsize
  have hready' : (ensureDetected : Job (Shared β σ) Unit).run w' = some ((), w') :=
    run_ensureDetected (by rw [hinv, initialized_of_ensureDetected hready])
  obtain ⟨a', w'', hperform', -, v', rfl, rfl, hdoes'⟩ := ends_perform_does hfree' hready' next
  refine ⟨v'.answer, w'', hperform', not_fromCache_of_does hdoes' ?_⟩
  have hindex : indexOf w₁.monitor.inventory (v'.query.key w₁.monitor.inventory) = i := by
    rw [indexOf_key _ (by rwa [hnext]), hnext]
  rw [hinv, hcache, Cache.held?, item?_forget hne, if_pos hindex, Option.map_none]

end Runs

def queriedOne : Option (Unit × Shared StillBackend Instant) :=
  (operate [.call .cachedPrimary] : Job (Shared StillBackend Instant) Unit).run
    { monitor := new (stillRegistry .amd [card "a"]) {}, outside := 0 }

/-- The primary device is cached, and a refresh of it by its index drops that. -/
theorem refresh_leaves_nothing_older_of_queried : ∃ w a w', queriedOne = some ((), w) ∧
    w.monitor.cache.contains .primary = true ∧
    (refresh 0 : Job (Shared StillBackend Instant) Answer).run w = some (a, w') ∧
    w'.monitor.cache.contains .primary = false ∧
    ∀ e, w'.monitor.cache.item? (.device 0) = some e → a.snapshot = some e.snapshot := by
  have hcached : (queriedOne.map fun x => x.2.monitor.cache.contains .primary) = some true := by
    decide
  have hcounted : (queriedOne.bind fun x =>
      ((count : Job (Shared StillBackend Instant) ℕ).run x.2).map fun y =>
        (y.1, y.2.monitor.inventory.primaryIndex)) = some (1, 0) := by
    decide
  obtain ⟨w, n, w₁, hrun, hcount, h⟩ :=
    refresh_leaves_nothing_older (stillRegistry .amd [card "a"]) {} [.call .cachedPrimary] (0 : Instant)
  have hqueried : queriedOne = some ((), w) := hrun
  simp only [hqueried, Option.map_some, Option.some.injEq] at hcached
  simp only [hqueried, Option.bind_some, hcount, Option.map_some, Option.some.injEq,
    Prod.mk.injEq] at hcounted
  obtain ⟨rfl, hprimary⟩ := hcounted
  obtain ⟨a, w', hperform, hsup, -⟩ := h (by decide) 0 (.refresh 0) (by decide) (Or.inl rfl)
  refine ⟨w, a, w', hqueried, hcached, hperform, ?_, hsup.device⟩
  rw [Cache.contains_eq, hsup.primary hprimary.symm, Option.isSome_none]

end GpuTelemetry.Monitor
