import GpuTelemetry.Proofs.Monitor.Visit
/-!
Where cached readings come from. The backends may fail, throw or leave anything in the reading they were
given; still nothing is cached but what the registry returned as a success, under the key of the query
it returned it to. A refresh that fails changes nothing and leaves nothing cached.
-/

namespace GpuTelemetry.Monitor

open Job (Ends ends_pure ends_bind)
open Shared (Outside ends_get ends_modifyGet)

variable {β σ α γ : Type} {s s' : Monitor β} {vs vs' : List Visit} {v : Visit} {k : Cache.Key}

def Query.Of (k : Cache.Key) (q : Query) : Prop :=
  if k = .primary then q = .cachedPrimary
  else q = .cached k.value ∨ q = .refresh k.value ∨ q = .refreshPrimary

/-- The registry returned `r` to the query, which published it under `k` at `t`. -/
def Visit.Brings (v : Visit) (k : Cache.Key) (t : Instant) (r : Reading) : Prop :=
  ∃ p, v.course = .refreshed p r t ∧ p.key = k

/-- What is cached was brought by one of the queries, and the collection has devices then. Keys of
devices and that of the primary one are told apart as far as the devices can be counted in a word. -/
structure Provided (vs : List Visit) (s : Monitor β) : Prop where
  held : ∀ k t r, s.cache.held? k = some (t, r) → 0 < s.inventory.size ∧ ∃ v ∈ vs, v.Brings k t r ∧
    (s.inventory.size < UInt64.size → v.query.Of k)
  blank : s.inventory.initialized = false → s.inventory.size = 0

theorem provided_new (reg : Registry β) (policy : Cache.Policy) : Provided [] (new reg policy) := by
  refine ⟨fun k t r hk => ?_, fun _ => rfl⟩
  have hnone : (new reg policy).cache.held? k = none := rfl
  rw [hnone] at hk
  cases hk

theorem Provided.not_held (h : Provided vs s) (hsize : s.inventory.size = 0) (k : Cache.Key) :
    s.cache.held? k = none := by
  refine Option.eq_none_iff_forall_ne_some.2 fun x hx => ?_
  have hpos := (h.held k x.1 x.2 hx).1
  omega

theorem Provided.append (h : Provided vs s) (more : List Visit) : Provided (vs ++ more) s := by
  refine ⟨fun k t r hk => ?_, h.blank⟩
  obtain ⟨hpos, v, hv, hrest⟩ := h.held k t r hk
  exact ⟨hpos, v, List.mem_append_left more hv, hrest⟩

/-- Entries may go while the collection keeps its size. -/
theorem Provided.of_held (h : Provided vs s) (hsize : s'.inventory.size = s.inventory.size)
    (hi : s'.inventory.initialized = s.inventory.initialized)
    (hheld : ∀ k x, s'.cache.held? k = some x → s.cache.held? k = some x) : Provided vs s' := by
  refine ⟨fun k t r hk => ?_, fun hblank => ?_⟩
  · rw [hsize]
    exact h.held k t r (hheld k (t, r) hk)
  · rw [hsize]
    exact h.blank (hi ▸ hblank)

/-- A collection may be stored while nothing is cached. -/
theorem provided_of_empty (hi : s.inventory.initialized = true) (hnone : ∀ k, s.cache.held? k = none) :
    Provided vs s := by
  refine ⟨fun k t r hk => ?_, fun hblank => ?_⟩
  · rw [hnone k] at hk
    cases hk
  · rw [hi] at hblank
    cases hblank

theorem size_set (inv : Inventory) (i : UInt64) (r : Reading) : (inv.set i r).size = inv.size :=
  List.length_set

theorem Provided.storeSame (h : Provided vs s) (i : UInt64) (fresh : Reading) :
    Provided vs (storeSame i fresh s) := by
  rcases s.inventory.updateSame_cases i fresh with ⟨_, _, _, hu⟩ | hu
  · refine h.of_held ?_ ?_ fun _ _ => id
    · simp only [Monitor.storeSame, hu, size_set]
    · simp only [Monitor.storeSame, hu, Inventory.set]
  · refine h.of_held ?_ ?_ fun _ _ => id
    · simp only [Monitor.storeSame, hu]
    · simp only [Monitor.storeSame, hu]

/-- Another primary device drops what was cached of the one before. -/
theorem Provided.selectPrimary (h : Provided vs s) (i : UInt64) :
    Provided vs (selectPrimary i s).2 := by
  rcases selectPrimary_cases i s with ⟨_, hsel⟩ | hsel
  · rw [hsel]
    exact h.of_held rfl rfl fun k x hk => (Cache.held?_of_invalidate hk).2
  · rw [hsel]
    exact h

/-! ### What a query keeps -/

section Query

variable {q : Query} {now : Instant} {p : Pending}

/-- A query is asked under its own key. -/
theorem of_key_of_pending (h : (q.opening now s).1 = .pending p)
    (hsize : s.inventory.size < UInt64.size) : q.Of p.key := by
  obtain ⟨hk, hs⟩ := pending_of_opening h
  have hlt := Inventory.get?_lt (Inventory.slot?_eq_some.1 hs).1
  have hdevice : Cache.Key.device (q.index s.inventory) ≠ .primary := device_ne_primary hlt hsize
  rw [hk]
  cases q with
  | cachedPrimary => exact (if_pos rfl).mpr rfl
  | cached i => exact (if_neg hdevice).mpr (Or.inl rfl)
  | refresh i => exact (if_neg hdevice).mpr (Or.inr (Or.inl rfl))
  | refreshPrimary => exact (if_neg hdevice).mpr (Or.inr (Or.inr rfl))

/-- Nothing is cached in the first step of a query. -/
theorem Provided.opening (h : Provided vs s) (q : Query) (now : Instant) :
    Provided vs (q.opening now s).2 := by
  have hinv : (q.opening now s).2.inventory = s.inventory := inventory_opening
  exact h.of_held (by rw [hinv]) (by rw [hinv]) fun k x => held?_of_opening

/-- Only a success is cached, as it was returned, and the query that brought it is on record. -/
theorem Provided.does (h : Provided vs s) (hv : v.Does s s') : Provided (vs ++ [v]) s' := by
  have hopen := (h.opening v.query v.looked).append [v]
  cases hv with
  | answered a ho hc => exact hopen
  | failed p status ho hc hstatus => exact hopen
  | refreshed p fresh now ho hc =>
    have hinv : (v.query.opening v.looked s).2.inventory = s.inventory := inventory_opening
    obtain ⟨-, hs⟩ := pending_of_opening ho
    -- the slot it was asked for is there, so there are devices
    have hpos : 0 < s.inventory.size :=
      Nat.zero_lt_of_lt (Inventory.get?_lt (Inventory.slot?_eq_some.1 hs).1)
    rcases publish_cases p fresh now (v.query.opening v.looked s).2 with ⟨_, hpub⟩ | hpub
    · rw [hpub]
      dsimp only
      refine ⟨fun k t r hk => ?_, fun hblank => ?_⟩
      · dsimp only at hk ⊢
        rw [size_set, hinv]
        by_cases hself : k = p.key
        · subst hself
          by_cases hroom : (v.query.opening v.looked s).2.cache.policy.maxEntries = some 0
          -- without room the key is as absent as the look-up left it
          · rw [Cache.put_of_no_room hroom, held?_of_pending ho] at hk
            cases hk
          · rw [Cache.held?_put_self hroom] at hk
            cases hk
            exact ⟨hpos, v, by simp, ⟨p, hc, rfl⟩, of_key_of_pending ho⟩
        · rw [← hinv]
          exact hopen.held k t r (Cache.held?_of_put hself hk)
      · dsimp only at hblank ⊢
        rw [size_set]
        exact hopen.blank hblank
    · rw [hpub]
      exact hopen

structure Visit.Honest (v : Visit) (vs : List Visit) (s s' : Monitor β) : Prop where
  cached : v.answer.fromCache = true → ∃ v₀ ∈ vs, ∃ t r,
    v₀.Brings (v.query.key s.inventory) t r ∧ v.answer = .cached r ∧
      (s.inventory.size < UInt64.size → v₀.query.Of (v.query.key s.inventory))
  failed : ∀ p status, v.course = .failed p status →
    (status = .noBackend ∨ status = .detectionFailed) ∧
    (∃ r, s.inventory.get? (v.query.index s.inventory) = some r ∧
      v.answer = { snapshot := some r, status }) ∧
    s'.inventory = s.inventory ∧ s'.cache.contains (v.query.key s.inventory) = false
  empty : v.query = .cachedPrimary → s.inventory.devices = [] →
    v.answer = .fresh .sentinel ∧ s'.inventory = s.inventory ∧ ∀ k, s'.cache.contains k = false

theorem contains_of_not_held {c : Cache} (h : c.held? k = none) : c.contains k = false := by
  rw [Cache.contains_eq, Cache.item?_of_not_held h]
  rfl

/-- What a query answers from the cache was brought by an earlier one, or by this one. -/
theorem Provided.honest (h : Provided vs s) (hv : v.Does s s') : v.Honest vs s s' := by
  have hinv : (v.query.opening v.looked s).2.inventory = s.inventory := inventory_opening
  refine ⟨fun hcached => ?_, fun p status hfailed => ?_, fun hq hnone => ?_⟩
  -- only an answer without the registry says that it is cached, and then it was held
  · cases hv with
    | answered a ho hc =>
      rw [Visit.answer, hc] at hcached ⊢
      rcases answered_of_opening ho with ⟨x, hx, rfl⟩ | ⟨-, rfl⟩
      · obtain ⟨-, v₀, hv₀, hbrings, hof⟩ := h.held _ x.1 x.2 hx
        exact ⟨v₀, hv₀, x.1, x.2, hbrings, rfl, hof⟩
      · cases hq : v.query <;> simp [hq, Course.answer, Query.absent, Answer.notFound, Answer.fresh] at hcached
    | refreshed p fresh now ho hc => simp [Visit.answer, hc, Course.answer, Answer.fresh] at hcached
    | failed p status ho hc hstatus =>
      simp [Visit.answer, hc, Course.answer, Pending.failed] at hcached
  -- a failure comes after the look-up that missed, and publishes nothing
  · cases hv with
    | answered a ho hc => simp [hc] at hfailed
    | refreshed p fresh now ho hc => simp [hc] at hfailed
    | failed p' status' ho hc hstatus =>
      rw [hc] at hfailed
      cases hfailed
      obtain ⟨hk, hs⟩ := pending_of_opening ho
      have hgone := held?_of_pending ho
      refine ⟨hstatus, ⟨p.slot.reading, (Inventory.slot?_eq_some.1 hs).1, ?_⟩, hinv, ?_⟩
      · rw [Visit.answer, hc, Course.answer, Pending.failed]
      · exact contains_of_not_held (hk ▸ hgone)
  -- without devices nothing is cached and no slot is found, so the registry is not asked
  · have hsize : s.inventory.size = 0 := by rw [Inventory.size, hnone, List.length_nil]
    have hpending {p : Pending} (ho : (v.query.opening v.looked s).1 = .pending p) : False := by
      obtain ⟨-, hs⟩ := pending_of_opening ho
      have hlt := Inventory.get?_lt (Inventory.slot?_eq_some.1 hs).1
      rw [Inventory.size] at hsize
      omega
    cases hv with
    | answered a ho hc =>
      have hempty := (h.opening v.query v.looked).not_held (by rw [hinv, hsize])
      refine ⟨?_, hinv, fun k => contains_of_not_held (hempty k)⟩
      rw [Visit.answer, hc]
      rcases answered_of_opening ho with ⟨x, hx, _⟩ | ⟨-, rfl⟩
      · rw [h.not_held hsize] at hx
        cases hx
      · rw [hq]
        rfl
    | refreshed p fresh now ho hc => exact (hpending ho).elim
    | failed p status ho hc hstatus => exact (hpending ho).elim

end Query

/-! ### What the other operations keep -/

section Operations

/-- Run alone the job ends, without the detection lock, and what is cached has the same origin. -/
def Safe (vs : List Visit) (job : Job (Shared β σ) α) : Prop :=
  ∀ w, w.detecting = false → Provided vs w.monitor →
    Ends job w fun _ w' => w'.detecting = false ∧ Provided vs w'.monitor

theorem safe_pure (a : α) : Safe vs (pure a : Job (Shared β σ) α) :=
  fun _ hfree h => ends_pure ⟨hfree, h⟩

theorem safe_bind {job : Job (Shared β σ) γ} {f : γ → Job (Shared β σ) α} (h : Safe vs job)
    (hf : ∀ b, Safe vs (f b)) : Safe vs (job >>= f) := by
  intro w hfree hw
  refine ends_bind ((h w hfree hw).mono ?_)
  intro b w' hw'
  exact hf b w' hw'.1 hw'.2

theorem safe_outside {job : Job (Shared β σ) α} {Q : α → Prop} (h : Outside job Q) :
    Safe vs job := by
  intro w hfree hw
  refine (h w).mono ?_
  intro a w' hw'
  obtain ⟨_, o, rfl⟩ := hw'
  exact ⟨hfree, hw⟩

theorem safe_get : Safe vs (get : Job (Shared β σ) (Monitor β)) :=
  fun _ hfree h => ends_get ⟨hfree, h⟩

theorem safe_modifyGet {f : Monitor β → α × Monitor β}
    (hf : ∀ s, Provided vs s → Provided vs (f s).2) :
    Safe vs (modifyGet f : Job (Shared β σ) α) :=
  fun w hfree h => ends_modifyGet ⟨hfree, hf w.monitor h⟩

theorem Provided.ready {w w' : Shared β σ} (h : Provided vs w.monitor)
    (hready : w'.monitor = w.monitor ∨ w.monitor.inventory.initialized = false ∧
      ∃ found, w'.monitor = install found w.monitor) : Provided vs w'.monitor := by
  rcases hready with hsame | ⟨hi, found, hinstall⟩
  · rw [hsame]
    exact h
  · rw [hinstall]
    exact provided_of_empty rfl fun k => h.not_held (h.blank hi) k

variable [Surroundings σ]

theorem safe_report (n : Notice) : Safe vs (Host.report n : Job (Shared β σ) Unit) :=
  safe_outside (Shared.outside_onOutside _)

variable [BackendCalls β (StateM σ)]

/-- A first detection finds nothing cached, so it leaves nothing out of place. -/
theorem safe_ensureDetected : Safe vs (ensureDetected : Job (Shared β σ) Unit) := by
  intro w hfree hw
  refine (ends_ready hfree).mono ?_
  intro u w' hw'
  exact ⟨hw'.1, hw.ready hw'.2.2⟩

theorem safe_detectAll : Safe vs (detectAll : Job (Shared β σ) ℕ) := by
  intro w hfree hw
  refine ends_detectAll hfree ((Registry.outside_detectAll _ _).mono ?_)
  intro found w' hw'
  obtain ⟨_, o, rfl⟩ := hw'
  exact ⟨rfl, provided_of_empty rfl fun _ => rfl⟩

theorem admits_safe : Admits fun α (job : Job (Shared β σ) α) => Safe vs job where
  pure := safe_pure
  bind := safe_bind
  report := safe_report
  name _ := safe_outside (Shared.outside_onOutside _)
  detect _ := safe_outside (Shared.outside_onOutside _)
  refresh _ _ := safe_outside (Shared.outside_onOutside _)
  get := safe_get

theorem safe_refreshAll : Safe vs (refreshAll : Job (Shared β σ) Status) := by
  have hstore (i : UInt64) (fresh : Reading) :
      Safe vs (modify (storeSame i fresh) : Job (Shared β σ) PUnit) :=
    safe_modifyGet fun s h => h.storeSame i fresh
  have hclear : Safe vs (modify clearCache : Job (Shared β σ) PUnit) := by
    refine safe_modifyGet fun s h => h.of_held rfl rfl fun k x hk => ?_
    simp [clearCache] at hk
  exact safe_bind safe_ensureDetected fun _ => admits_safe.refreshEach hstore hclear

theorem safe_setPrimary (i : UInt64) : Safe vs (setPrimary i : Job (Shared β σ) Status) := by
  have hselect : Safe vs (modifyGet (selectPrimary i) : Job (Shared β σ) Status) :=
    safe_modifyGet fun s h => h.selectPrimary i
  exact safe_bind safe_ensureDetected fun _ => admits_safe.select hselect

theorem safe_operation {op : Operation} (hop : op.query? = none) :
    Safe vs (op.perform : Job (Shared β σ) Unit) := by
  have hdiscard {α : Type} {job : Job (Shared β σ) α} (h : Safe vs job) : Safe vs (discard job) :=
    safe_bind h fun _ => safe_pure _
  have hreply {α : Type} {job : Job (Shared β σ) α} (f : α → Reply) (h : Safe vs job) :
      Safe vs (f <$> job) :=
    safe_bind h fun _ => safe_pure _
  -- a look at the collection waits for a detection, and then it is one step
  have hlook {α : Type} (f : Monitor β → α) :
      Safe vs (ensureDetected >>= fun _ => get >>= fun s => pure (f s) : Job (Shared β σ) α) :=
    safe_bind safe_ensureDetected fun _ => safe_bind safe_get fun _ => safe_pure _
  cases op with
  | call c =>
    cases c with
    | cached i | cachedPrimary | refresh i | refreshPrimary => cases hop
    | refreshAll => exact hdiscard (hreply _ safe_refreshAll)
    | setPrimary i => exact hdiscard (hreply _ (safe_setPrimary i))
    | detectAll => exact hdiscard (hreply _ safe_detectAll)
    | device i => exact hdiscard (hreply _ (hlook _))
    | devices => exact hdiscard (hreply _ (hlook _))
  | snapshot => cases hop
  | reread r => exact hdiscard (admits_safe.refreshReading r)
  | count => exact hdiscard (hlook _)
  | primaryIndex => exact hdiscard (hlook _)
  | cacheStats =>
    exact hdiscard (safe_bind (safe_outside (Shared.outside_onOutside _)) fun _ =>
      safe_bind safe_get fun _ => safe_pure _)

/-! ### Runs -/

/-- A query comes to an end, and what it has cached it has brought. -/
theorem ends_visit_provided {w : Shared β σ} (hfree : w.detecting = false)
    (h : Provided vs w.monitor) (q : Query) :
    Ends (q.visit : Job (Shared β σ) Visit) w fun v w' => w'.detecting = false ∧
      Provided (vs ++ [v]) w'.monitor ∧
      ∃ w₁, (ensureDetected : Job (Shared β σ) Unit).run w = some ((), w₁) ∧ v.query = q ∧
        v.Honest vs w₁.monitor w'.monitor := by
  refine (ends_visit hfree q).mono ?_
  intro v w' hv
  obtain ⟨hq, hfree', w₁, hrun, hdoes⟩ := hv
  have hready : Provided vs w₁.monitor := by
    obtain ⟨u, w₂, hrun₂, _, _, hmonitor⟩ := ends_ready hfree
    rw [hrun] at hrun₂
    cases hrun₂
    exact h.ready hmonitor
  exact ⟨hfree', hready.does hdoes, w₁, hrun, hq, hready.honest hdoes⟩

/-- Operations one after the other come to an end, and all queries among them are honest. -/
theorem ends_allVisits {w : Shared β σ} (hfree : w.detecting = false) (h : Provided vs w.monitor)
    (ops : List Operation) :
    Ends (allVisits ops : Job (Shared β σ) (List Visit)) w fun more w' => w'.detecting = false ∧
      Provided (vs ++ more) w'.monitor := by
  -- on the operations; what is cached goes back to the queries before them and to their own
  induction ops generalizing vs w with
  | nil => exact ends_pure ⟨hfree, h.append []⟩
  | cons op ops ih =>
    have hop : Ends (op.visits : Job (Shared β σ) (List Visit)) w fun more w' =>
        w'.detecting = false ∧ Provided (vs ++ more) w'.monitor := by
      rw [Operation.visits]
      cases hq : op.query? with
      | some q =>
        refine Job.ends_map ((ends_visit_provided hfree h q).mono ?_)
        intro v w' hv
        exact ⟨hv.1, hv.2.1⟩
      | none =>
        refine Job.ends_map ((safe_operation hq w hfree h).mono ?_)
        intro u w' hw'
        exact ⟨hw'.1, hw'.2.append []⟩
    refine ends_bind (hop.mono ?_)
    intro more w₁ hw₁
    refine ends_bind ((ih hw₁.1 hw₁.2).mono ?_)
    intro rest w' hw'
    rw [List.append_assoc] at hw'
    exact ends_pure hw'

/-- **Only successes are served from the cache.** After any operations every cached reading is the one
with which the registry answered an earlier query of its key. So is whatever the next query is answered
with from the cache; if its refresh fails instead, it gets the stored reading with the reason, the
collection stays as it is and its key is not cached; and without devices the primary one is answered by
the sentinel, which is not cached either. -/
theorem cached_as_refreshed (reg : Registry β) (policy : Cache.Policy) (ops : List Operation) (o : σ) :
    ∃ vs w,
      (allVisits ops : Job (Shared β σ) (List Visit)).run
        { monitor := new reg policy, outside := o } = some (vs, w) ∧
      (operate ops : Job (Shared β σ) Unit).run
        { monitor := new reg policy, outside := o } = some ((), w) ∧
      (∀ k t r, w.monitor.cache.held? k = some (t, r) → ∃ v ∈ vs, v.Brings k t r ∧
        (w.monitor.inventory.size < UInt64.size → v.query.Of k)) ∧
      ∀ q : Query, ∃ v w₁ w', (ensureDetected : Job (Shared β σ) Unit).run w = some ((), w₁) ∧
        (q.visit : Job (Shared β σ) Visit).run w = some (v, w') ∧ v.query = q ∧
        (q.perform : Job (Shared β σ) Answer).run w = some (v.answer, w') ∧
        v.Honest vs w₁.monitor w'.monitor := by
  obtain ⟨vs, w, hrun, hfree, h⟩ :=
    ends_allVisits (w := { monitor := new reg policy, outside := o }) rfl
      (provided_new reg policy) ops
  rw [List.nil_append] at h
  refine ⟨vs, w, hrun, run_operate hrun, fun k t r hk => (h.held k t r hk).2, fun q => ?_⟩
  obtain ⟨v, w', hvisit, _, _, w₁, hready, hq, hhonest⟩ := ends_visit_provided hfree h q
  exact ⟨v, w₁, w', hready, hvisit, hq, run_perform hvisit, hhonest⟩

end Operations

end GpuTelemetry.Monitor
