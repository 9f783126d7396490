import GpuTelemetry.Proofs.Job.Run
import GpuTelemetry.Proofs.Monitor.Interleaving
import GpuTelemetry.Proofs.Monitor.Publication
import GpuTelemetry.Proofs.Monitor.Transparency

namespace GpuTelemetry.Monitor

variable {β : Type} {s s' : Monitor β} {i : UInt64} {k : Cache.Key} {now : Instant} {p : Pending}

/-- What is cached is of a device in the collection or of the primary one, which is in it too. -/
structure InRange (s : Monitor β) : Prop where
  primary : 0 < s.inventory.devices.length →
    s.inventory.primaryIndex.toNat < s.inventory.devices.length
  held : ∀ k x, s.cache.held? k = some x → 0 < s.inventory.devices.length ∧
    (k = .primary ∨ k.value.toNat < s.inventory.devices.length)

theorem inRange_new (reg : Registry β) (policy : Cache.Policy) : InRange (new reg policy) := by
  refine ⟨fun hpos => absurd hpos (Nat.lt_irrefl 0), fun k x hk => ?_⟩
  have hnone : (new reg policy).cache.held? k = none := rfl
  rw [hnone] at hk
  cases hk

theorem InRange.of_held (h : InRange s)
    (hlen : s'.inventory.devices.length = s.inventory.devices.length)
    (hprimary : s'.inventory.primaryIndex = s.inventory.primaryIndex)
    (hheld : ∀ k x, s'.cache.held? k = some x → s.cache.held? k = some x) : InRange s' := by
  refine ⟨?_, fun k x hk => ?_⟩
  · rw [hlen, hprimary]
    exact h.primary
  · rw [hlen]
    exact h.held k x (hheld k x hk)

theorem InRange.opening (h : InRange s) (q : Query) (now : Instant) :
    InRange (q.opening now s).2 :=
  h.of_held (by rw [inventory_opening]) (by rw [inventory_opening]) fun _ _ => held?_of_opening

theorem InRange.stored (h : InRange s) (hlt : i.toNat < s.inventory.devices.length)
    (hkey : k = .device i ∨ k = .primary) (fresh : Reading) (now : Instant) :
    InRange { s with
      inventory := s.inventory.set i fresh
      cache := s.cache.put now k fresh } := by
  have hlen : (s.inventory.set i fresh).devices.length = s.inventory.devices.length := by
    simp [Inventory.set]
  refine ⟨?_, fun j x hj => ?_⟩
  · dsimp only
    rw [hlen]
    exact h.primary
  · dsimp only at hj ⊢
    rw [hlen]
    by_cases hself : j = k
    · refine ⟨Nat.zero_lt_of_lt hlt, ?_⟩
      rcases hkey with hdev | hprimary
      · exact Or.inr (by rw [hself, hdev]; exact hlt)
      · exact Or.inl (hself.trans hprimary)
    · exact h.held j x (Cache.held?_of_put hself hj)

/-- Whatever is found, its first device is the primary one. -/
theorem inRange_of_replace {found : List Reading} (hinv : s'.inventory = s.inventory.replace found)
    (hnone : ∀ k, s'.cache.held? k = none) : InRange s' := by
  refine ⟨?_, fun k x hk => ?_⟩
  · rw [hinv]
    exact id
  · rw [hnone k] at hk
    cases hk

/-! ### Histories -/

section Histories

open Traffic (after)

variable {reg : Registry β} {policy : Cache.Policy} {es : List Event} {ev : Event}
  {v v' : Traffic β} {id : ℕ}

structure Ranged (v : Traffic β) : Prop where
  inRange : InRange v.monitor
  blank : v.detecting = some true ∨ v.monitor.inventory.initialized = false →
    v.monitor.inventory.devices.length = 0

theorem Ranged.of_still (h : Ranged v) (hin : InRange v'.monitor) (hd : v'.detecting = v.detecting)
    (hlen : v'.monitor.inventory.devices.length = v.monitor.inventory.devices.length)
    (hi : v'.monitor.inventory.initialized = v.monitor.inventory.initialized) : Ranged v' := by
  refine ⟨hin, ?_⟩
  rw [hd, hlen, hi]
  exact h.blank

theorem Ranged.not_held (h : Ranged v) (hd : v.detecting = some true) (k : Cache.Key) :
    v.monitor.cache.held? k = none := by
  refine Option.eq_none_iff_forall_ne_some.2 fun x hx => ?_
  have hpos := (h.inRange.held k x hx).1
  rw [h.blank (Or.inl hd)] at hpos
  exact absurd hpos (Nat.lt_irrefl 0)

/-- Every event keeps the cache in range. -/
theorem ranged_step (h : Ranged v)
    (hkey : ∀ id p, v.inFlight id = some p → p.key = .device p.slot.index ∨ p.key = .primary)
    (hs : v.step ev = some v') : Ranged v' := by
  cases stepped hs with
  | opens q now =>
    have hinv : (q.opening now v.monitor).2.inventory = v.monitor.inventory := inventory_opening
    exact h.of_still (h.inRange.opening q now) rfl (by rw [hinv]) (by rw [hinv])
  | @publishes id p fresh now hp hcurrent hlt =>
    exact h.of_still (h.inRange.stored hlt (hkey id p hp) fresh now) rfl (by simp [Inventory.set]) rfl
  | drops | fails | declines | keeps => exact h.of_still h.inRange rfl rfl rfl
  | detects first hfree hblank =>
    refine ⟨h.inRange, fun hno => h.blank (Or.inr ?_)⟩
    rcases hno with hd | hi
    · exact hblank (Option.some.inj hd)
    · exact hi
  | installs found hfirst =>
    -- the first detection does not empty the cache, but nothing has been cached before it
    exact ⟨inRange_of_replace rfl (h.not_held hfirst), by simp [install, Inventory.replace]⟩
  | reinstalls found =>
    exact ⟨inRange_of_replace rfl fun _ => rfl, by simp [reinstall, Inventory.replace]⟩
  | selects i hlt =>
    have hin : InRange { v.monitor with
        inventory := { v.monitor.inventory with
          primaryIndex := i, generation := v.monitor.inventory.generation + 1 }
        cache := v.monitor.cache.invalidate .primary } :=
      ⟨fun _ => hlt, fun k x hk => h.inRange.held k x (Cache.held?_of_invalidate hk).2⟩
    exact h.of_still hin rfl rfl rfl
  | stores i fresh hold hsame =>
    have hlen : (v.monitor.inventory.set i fresh).devices.length =
        v.monitor.inventory.devices.length := by
      simp [Inventory.set]
    exact h.of_still (h.inRange.of_held hlen rfl fun _ _ => id) rfl hlen rfl
  | empties =>
    refine h.of_still (h.inRange.of_held rfl rfl fun k x hk => ?_) rfl rfl rfl
    simp [clearCache] at hk

/-- After every history the cache is in range. -/
theorem ranged_after (h : after reg policy es = some v) : Ranged v := by
  induction es using List.reverseRecOn generalizing v with
  | nil =>
    cases h
    exact ⟨inRange_new reg policy, fun _ => rfl⟩
  | append_singleton es ev ih =>
    obtain ⟨v₀, h₀, hs⟩ := after_snoc_eq_some h
    refine ranged_step (ih h₀) (fun id p hp => ?_) hs
    -- the key of a query was settled when it was opened
    obtain ⟨since, earlier, q, now, v₁, rfl, _, _, ho, _⟩ := opened_of_inFlight h₀ hp
    exact (slot_of_opening ho).2.imp_right And.left

end Histories

/-! ### Queries beyond the last device -/

/-- Nothing is cached of a device that is not there, unless its index stands for the primary one. -/
theorem InRange.absent (h : InRange s) (hi : s.inventory.devices.length ≤ i.toNat)
    (hne : Cache.Key.device i ≠ .primary) : s.cache.item? (.device i) = none := by
  refine Cache.item?_of_not_held (Option.eq_none_iff_forall_ne_some.2 fun x hx => ?_)
  rcases (h.held _ x hx).2 with hprimary | hlt
  · exact hne hprimary
  · exact absurd hlt (Nat.not_lt.2 hi)

theorem slot?_of_le (hi : s.inventory.devices.length ≤ i.toNat) : s.inventory.slot? i = none := by
  rw [Inventory.slot?, Inventory.get?, List.getElem?_eq_none hi, Option.map_none]

/-- A query beyond the last device changes nothing. -/
theorem openCached_of_le (h : InRange s) (hi : s.inventory.devices.length ≤ i.toNat)
    (hne : Cache.Key.device i ≠ .primary) (now : Instant) :
    openCached i now s = (.answered .notFound, s) := by
  rw [openCached, Cache.get_of_absent (h.absent hi hne)]
  simp only [slot?_of_le hi, Opening.ofSlot]

/-- A refresh beyond the last device changes nothing. -/
theorem openRefresh_of_le (h : InRange s) (hi : s.inventory.devices.length ≤ i.toNat)
    (hne : Cache.Key.device i ≠ .primary) : openRefresh i s = (.answered .notFound, s) := by
  have hdevice : s.invalidate (.device i) = s := by
    rw [Monitor.invalidate, Cache.invalidate_of_absent (h.absent hi hne)]
  -- there is no primary device out there, unless there is none at all
  have hprimary (heq : i = s.inventory.primaryIndex) : s.invalidate .primary = s := by
    have hempty : s.cache.held? .primary = none := by
      refine Option.eq_none_iff_forall_ne_some.2 fun x hx => ?_
      have hlt := h.primary (h.held _ x hx).1
      rw [← heq] at hlt
      exact absurd hlt (Nat.not_lt.2 hi)
    rw [Monitor.invalidate, Cache.invalidate_of_absent (Cache.item?_of_not_held hempty)]
  have hstate : (if i = s.inventory.primaryIndex then s.invalidate .primary else s) = s := by
    split
    · exact hprimary ‹_›
    · rfl
  simp only [openRefresh, hdevice, hstate, slot?_of_le hi, Opening.ofSlot]

/-! ### Operations -/

section Operations

/-- What a caller may ask of a monitor; all else is asked of the list of its devices. -/
inductive Operation where
  | call (c : Call)
  | snapshot
  | reread (r : Reading)
  | count
  | primaryIndex
  | cacheStats

section Perform

variable {m : Type → Type} [Monad m] [MonadState (Monitor β) m] [BackendCalls β m] [Host m]

def Operation.perform : Operation → m Unit
  | .call c => discard c.perform
  | .snapshot => discard primarySnapshot
  | .reread r => discard (refreshReading r)
  | .count => discard Monitor.count
  | .primaryIndex => discard Monitor.primaryIndex
  | .cacheStats => discard Monitor.cacheStats

def countAfter : List Operation → m ℕ
  | [] => Monitor.count
  | op :: ops => do
    op.perform
    countAfter ops

end Perform

variable {σ α : Type}

theorem keeps_discard {job : Job (Shared β σ) α} (h : Keeps job) : Keeps (discard job) :=
  keeps_bind h fun _ => keeps_pure _

variable [BackendCalls β (Job (Shared β σ))] [Surroundings σ]
  {reg : Registry β} {policy : Cache.Policy} {w w' : Shared β σ} {n : ℕ}

theorem keeps_count (hb : Behaved β σ) : Keeps (count : Job (Shared β σ) ℕ) :=
  keeps_bind (keeps_ensureDetected hb) fun _ => keeps_bind keeps_get fun _ => keeps_pure _

theorem keeps_operate (hb : Behaved β σ) (op : Operation) :
    Keeps (op.perform : Job (Shared β σ) Unit) := by
  have hready := keeps_ensureDetected hb
  cases op with
  | call c => exact keeps_discard (keeps_perform hb c)
  | snapshot =>
    exact keeps_discard (keeps_bind (keeps_bind hready fun _ => keeps_bind (keeps_outside _)
      fun now => keeps_query hb .cachedPrimary now) fun _ => keeps_pure _)
  | reread r => exact keeps_discard ((admits_keeps hb).refreshReading r)
  | count => exact keeps_discard (keeps_count hb)
  | primaryIndex =>
    exact keeps_discard (keeps_bind hready fun _ => keeps_bind keeps_get fun _ => keeps_pure _)
  | cacheStats =>
    exact keeps_discard (keeps_bind (keeps_outside _) fun _ => keeps_bind keeps_get fun _ =>
      keeps_pure _)

theorem keeps_countAfter (hb : Behaved β σ) (ops : List Operation) :
    Keeps (countAfter ops : Job (Shared β σ) ℕ) := by
  induction ops with
  | nil => exact keeps_count hb
  | cons op ops ih => exact keeps_bind (keeps_operate hb op) fun _ => ih

theorem run_ensureDetected (hi : w.monitor.inventory.initialized = true) :
    (ensureDetected : Job (Shared β σ) Unit).run w = some ((), w) := by
  simp [ensureDetected, isInitialized, Job.run_bind, hi]

theorem initialized_of_ensureDetected {u : Unit}
    (h : (ensureDetected : Job (Shared β σ) Unit).run w = some (u, w')) :
    w'.monitor.inventory.initialized = true := by
  cases hi : w.monitor.inventory.initialized with
  | true =>
    rw [run_ensureDetected hi] at h
    cases h
    exact hi
  | false =>
    -- whatever the detection does, the last step under the lock stores what was found
    simp only [ensureDetected, isInitialized, Bool.not_eq_eq_eq_not, Bool.not_true, Job.run_bind,
      Shared.run_get, Job.run_pure, Option.bind_some, hi, if_true, Shared.run_exclusively,
      Shared.run_modify, Option.map_bind, Option.ite_none_left_eq_some, Bool.not_eq_true] at h
    obtain ⟨_, h⟩ := h
    obtain ⟨x, _, hx⟩ := Option.bind_eq_some_iff.1 h
    cases hx
    rfl

/-- The number of devices is that of the collection, which is stored by then. -/
theorem size_of_count (h : (count : Job (Shared β σ) ℕ).run w = some (n, w')) :
    w'.monitor.inventory.initialized = true ∧ n = w'.monitor.inventory.devices.length := by
  rw [count, Job.run_bind] at h
  obtain ⟨x, hx, h⟩ := Option.bind_eq_some_iff.1 h
  have hi := initialized_of_ensureDetected hx
  simp only [Job.run_bind, Shared.run_get, Job.run_pure, Option.bind_some, Option.some.injEq,
    Prod.mk.injEq] at h
  obtain ⟨rfl, rfl⟩ := h
  exact ⟨hi, rfl⟩

theorem count_of_countAfter {ops : List Operation}
    (h : (countAfter ops : Job (Shared β σ) ℕ).run w = some (n, w')) :
    ∃ v, (count : Job (Shared β σ) ℕ).run v = some (n, w') := by
  induction ops generalizing w with
  | nil => exact ⟨w, h⟩
  | cons op ops ih =>
    rw [countAfter, Job.run_bind] at h
    obtain ⟨x, _, h⟩ := Option.bind_eq_some_iff.1 h
    exact ih h

/-- **A query beyond the last device changes nothing.** After any operations a query of an index that is
not below the number of devices is answered in its first step: there is no such device. No backend is
asked, and the monitor is as it was. The one exception is the index that stands for the primary device
in the cache. -/
theorem not_found_beyond_count (hb : Behaved β σ) {ops : List Operation} {o : σ} {i : UInt64}
    (hrun : (countAfter ops : Job (Shared β σ) ℕ).run { monitor := new reg policy, outside := o } =
      some (n, w)) (hi : n ≤ i.toNat) (hne : Cache.Key.device i ≠ .primary) :
    (∀ now, openCached i now w.monitor = (.answered .notFound, w.monitor)) ∧
    (cached i : Job (Shared β σ) Answer).run w =
      some (.notFound, { w with outside := (Surroundings.now w.outside).2 }) ∧
    openRefresh i w.monitor = (.answered .notFound, w.monitor) ∧
    (refresh i : Job (Shared β σ) Answer).run w = some (.notFound, w) := by
  obtain ⟨v, hcount⟩ := count_of_countAfter hrun
  obtain ⟨hinit, rfl⟩ := size_of_count hcount
  obtain ⟨es, s, hs, hmonitor⟩ := history_of_run (keeps_countAfter hb ops) hrun
  have hin : InRange w.monitor := hmonitor ▸ (ranged_after hs).inRange
  have hcached := openCached_of_le hin hi hne
  have hrefresh := openRefresh_of_le hin hi hne
  refine ⟨hcached, ?_, hrefresh, ?_⟩
  · simp [cached, Job.run_bind, run_ensureDetected hinit, hcached, close]
  · simp [refresh, Job.run_bind, run_ensureDetected hinit, hrefresh, close]

end Operations

def countedOne : Option (ℕ × Shared StillBackend Instant) :=
  (countAfter [.call .cachedPrimary] : Job (Shared StillBackend Instant) ℕ).run
    { monitor := new (stillRegistry .amd [card "a"]) {}, outside := 0 }

/-- A monitor of one device, after a query of the primary one and a count. -/
theorem not_found_beyond_count_of_counted : ∃ w, countedOne = some (1, w) ∧
    (∀ now, openCached 1 now w.monitor = (.answered .notFound, w.monitor)) ∧
    (cached 1 : Job (Shared StillBackend Instant) Answer).run w =
      some (.notFound, { w with outside := (Surroundings.now w.outside).2 }) ∧
    openRefresh 1 w.monitor = (.answered .notFound, w.monitor) ∧
    (refresh 1 : Job (Shared StillBackend Instant) Answer).run w = some (.notFound, w) := by
  have hcount : countedOne.map Prod.fst = some 1 := by decide
  obtain ⟨⟨_, w⟩, hrun, rfl⟩ := Option.map_eq_some_iff.1 hcount
  exact ⟨w, hrun, not_found_beyond_count behaved_of_outside hrun (by decide) (by decide)⟩

/-- The index that stands for the primary device is answered from the cache with that device, and a
refresh of it drops what was cached of the primary device. -/
theorem primary_found_beyond_count :
    countedOne.map Prod.fst = some 1 ∧ 1 ≤ Cache.Key.primary.value.toNat ∧
    (countedOne.bind fun x =>
      ((cached Cache.Key.primary.value : Job (Shared StillBackend Instant) Answer).run x.2).map
        fun y => (y.1.status, y.1.fromCache, y.1.snapshot.isSome)) = some (.ok, true, true) ∧
    (countedOne.bind fun x =>
      ((refresh Cache.Key.primary.value : Job (Shared StillBackend Instant) Answer).run x.2).map
        fun y => (x.2.monitor.cache.contains .primary, y.1.status,
          y.2.monitor.cache.contains .primary)) = some (true, .notFound, false) := by
  decide +kernel

end GpuTelemetry.Monitor
