import GpuTelemetry.Proofs.Monitor.Slots
/-!
Queries of one device that overlap. Nothing orders them but their publications: the last one to publish
has the last word, whichever was the first to ask the backend.
-/

namespace GpuTelemetry.Monitor

open Traffic (after)

variable {β : Type} {reg : Registry β} {policy : Cache.Policy} {es later : List Event} {ev : Event}
  {s s' s₀ s₁ : Traffic β} {id : ℕ} {p : Pending} {i : UInt64} {r r' : Reading} {k : Cache.Key}
  {now t : Instant}

def Event.ofQuery : Event → Bool
  | .opens _ _ | .publishes _ _ _ | .fails _ => true
  | _ => false

theorem turns_of_ofQuery (h : ev.ofQuery = true) : ev.turns = false := by
  cases ev <;> first | rfl | cases h

theorem replaces_of_ofQuery (h : ev.ofQuery = true) : ev.replaces = false := by
  cases ev <;> first | rfl | cases h

theorem sized_of_ofQuery (h : ev.ofQuery = true) : ev.Sized := by
  cases ev with
  | finds found => cases h
  | _ => trivial

theorem after_of_append (h : after reg policy (es ++ later) = some s) :
    ∃ s₀, after reg policy es = some s₀ := by
  rw [after, List.foldlM_append] at h
  obtain ⟨s₀, h₀, _⟩ := Option.bind_eq_some_iff.1 h
  exact ⟨s₀, h₀⟩

/-! ### The cache -/

theorem policy_opening {q : Query} {s : Monitor β} :
    (q.opening now s).2.cache.policy = s.cache.policy := by
  cases q with
  | cached i => rw [Query.opening, cache_openCached, Cache.policy_get]
  | cachedPrimary => rw [Query.opening, cache_openPrimary, Cache.policy_get]
  | refresh i => rcases openRefresh_cases i s with h | h <;> rw [Query.opening, h] <;> rfl
  | refreshPrimary =>
    simp only [Query.opening, openRefreshPrimary]
    split <;> rfl

/-- No event changes the policy. -/
theorem policy_of_step (hs : s.step ev = some s') :
    s'.monitor.cache.policy = s.monitor.cache.policy := by
  cases stepped hs with
  | opens q now => exact policy_opening
  | publishes fresh now hp hcurrent hlt => exact Cache.policy_put
  | selects i hlt => exact Cache.policy_invalidate
  | _ => rfl

/-- A cache without room holds nothing. -/
theorem held?_of_no_room (hes : ∀ ev ∈ es, ev.Sized) (h : after reg policy es = some s)
    (hz : s.monitor.cache.policy.maxEntries = some 0) (k : Cache.Key) :
    s.monitor.cache.held? k = none := by
  induction es using List.reverseRecOn generalizing s with
  | nil =>
    cases h
    rfl
  | append_singleton es ev ih =>
    obtain ⟨s₀, h₀, hs⟩ := after_snoc_eq_some h
    have hsized := (List.forall_mem_append.1 hes).1
    rw [policy_of_step hs] at hz
    have hold := ih hsized h₀ hz
    rw [Option.eq_none_iff_forall_ne_some]
    rintro ⟨t, r⟩ hk
    rcases held?_of_step (sound_after hsized h₀) hs hk with ⟨hk₀, _⟩ | ⟨_, _, _, _, _, _, hroom⟩
    · simp [hold] at hk₀
    · exact absurd hz hroom

/-- What is held after a history was held before its last events, or one of them published it. -/
theorem held?_since (hes : ∀ ev ∈ es ++ later, ev.Sized) (h₀ : after reg policy es = some s₀)
    (h : after reg policy (es ++ later) = some s) (hk : s.monitor.cache.held? k = some (t, r)) :
    s₀.monitor.cache.held? k = some (t, r) ∨
    ∃ before id rest s₁ p, later = before ++ .publishes id r t :: rest ∧
      after reg policy (es ++ before) = some s₁ ∧ s₁.inFlight id = some p ∧ p.key = k := by
  -- an event at a time, from the state in which `later` begins
  refine since_induction (P := fun later s => (∀ ev ∈ es ++ later, ev.Sized) →
    s.monitor.cache.held? k = some (t, r) → s₀.monitor.cache.held? k = some (t, r) ∨
    ∃ before id rest s₁ p, later = before ++ .publishes id r t :: rest ∧
      after reg policy (es ++ before) = some s₁ ∧ s₁.inFlight id = some p ∧ p.key = k)
    h₀ (fun _ => Or.inl) ?_ h hes hk
  intro later ev s₁ s₂ h₁ ih hs hes hk
  rw [← List.append_assoc] at hes
  have hsized := (List.forall_mem_append.1 hes).1
  rcases held?_of_step (sound_after hsized h₁) hs hk with ⟨hold, _⟩ | ⟨id, p, rfl, hp, hkey, _⟩
  · rcases ih hsized hold with hk₀ | ⟨before, id, rest, s₂, p, rfl, hrest⟩
    · exact Or.inl hk₀
    · exact Or.inr ⟨before, id, rest ++ [ev], s₂, p, by simp, hrest⟩
  · exact Or.inr ⟨later, id, [], s₁, p, rfl, h₁, hp, hkey⟩

/-- A query of a device is answered from the cache with what that holds of the device. -/
theorem held?_of_openCached {s : Monitor β} (h : (openCached i now s).1 = .answered (.cached r)) :
    ∃ t, s.cache.held? (.device i) = some (t, r) := by
  unfold openCached at h
  split at h
  · rename_i x cache hget
    cases h
    have hhit : (s.cache.get now (.device i)).1 = some r := by rw [hget]
    rw [Cache.get_eq] at hhit
    obtain ⟨e, he, rfl⟩ := Option.map_eq_some_iff.1 hhit
    have hitem := (Option.filter_eq_some_iff.1 he).1
    exact ⟨e.createdAt, by rw [Cache.held?, hitem, Option.map_some]⟩
  · rename_i cache hget
    cases hslot : s.inventory.slot? i <;> rw [hslot] at h <;> cases h

/-! ### A refresh among other queries -/

variable {earlier between : List Event} {q : Query}

/-- A query that is still in flight is what its opening made of it. -/
theorem opening_of_inFlight (h₁ : after reg policy earlier = some s₁)
    (h₀ : after reg policy (earlier ++ .opens q now :: between) = some s₀)
    (hp : s₀.inFlight s₁.next = some p) : (q.opening now s₁.monitor).1 = .pending p := by
  have hopen : after reg policy (earlier ++ [.opens q now]) = s₁.step (.opens q now) := by
    rw [after_snoc, h₁, Option.bind_some]
  rw [List.append_cons] at h₀
  rcases inFlight_since hopen h₀ hp with hself | hnext
  · simp only [Function.update_self] at hself
    exact Opening.eq_pending hself
  · exact absurd hnext (Nat.not_succ_le_self _)

/-- Unless the generation has moved, a publication is carried out. -/
theorem publish_of_current {s : Monitor β} (hg : p.slot.generation = s.inventory.generation)
    (hi : p.slot.index.toNat < s.inventory.devices.length) (fresh : Reading) (now : Instant) :
    publish p fresh now s = (.fresh fresh, { s with
      inventory := s.inventory.set p.slot.index fresh, cache := s.cache.put now p.key fresh }) := by
  rw [publish, Inventory.updateSlot, if_pos ⟨hg, hi⟩, Cache.store]

/-- While there are only queries, a refresh publishes what it has read: its slot is there and still
means what it meant. -/
theorem publish_refresh (h₁ : after reg policy earlier = some s₁)
    (hbetween : ∀ ev ∈ between, ev.ofQuery = true)
    (h₀ : after reg policy (earlier ++ .opens (.refresh i) now :: between) = some s₀)
    (hp : s₀.inFlight s₁.next = some p) (fresh : Reading) (t : Instant) :
    i.toNat < s₀.monitor.inventory.devices.length ∧ p.slot.index = i ∧
    publish p fresh t s₀.monitor = (.fresh fresh, { s₀.monitor with
      inventory := s₀.monitor.inventory.set i fresh
      cache := s₀.monitor.cache.put t (.device i) fresh }) := by
  have hquery : ∀ ev ∈ Event.opens (.refresh i) now :: between, ev.ofQuery = true :=
    List.forall_mem_cons.2 ⟨rfl, hbetween⟩
  have ho := opening_of_inFlight h₁ h₀ hp
  -- the refresh read its slot when it was opened, and asks the registry for it
  have hslot : Opening.ofSlot (.device i) (s₁.monitor.inventory.slot? i) = .pending p := by
    rcases openRefresh_cases i s₁.monitor with hr | hr <;> rw [Query.opening, hr] at ho <;> exact ho
  obtain ⟨hread, hkey⟩ := ofSlot_eq_pending hslot
  obtain ⟨hget, hindex, hgen⟩ := Inventory.slot?_eq_some.1 hread
  have hdrift := drift_after h₁ h₀
  have hsize : i.toNat < s₀.monitor.inventory.devices.length := by
    rw [hdrift.size fun ev hev => replaces_of_ofQuery (hquery ev hev)]
    exact Inventory.get?_lt hget
  -- queries do not turn the generation
  have hcurrent : p.slot.generation = s₀.monitor.inventory.generation := by
    have hzero : (Event.opens (.refresh i) now :: between).countP Event.turns = 0 := by
      rw [List.countP_eq_zero]
      intro ev hev
      simp [turns_of_ofQuery (hquery ev hev)]
    rw [hdrift.generation, hzero, hgen]
    simp
  refine ⟨hsize, hindex, ?_⟩
  rw [publish_of_current hcurrent (by rwa [hindex]), hindex, hkey]

/-- A query asked under the key of a device has read the slot of that device. -/
theorem index_of_key (h : after reg policy es = some s) (hp : s.inFlight id = some p)
    (hi : Cache.Key.device i ≠ .primary) (hkey : p.key = .device i) : p.slot.index = i := by
  obtain ⟨since, earlier, q, now, s₁, rfl, _, _, ho, _⟩ := opened_of_inFlight h hp
  rcases (slot_of_opening ho).2 with hdev | ⟨hprimary, _⟩
  · exact congrArg Cache.Key.value (hdev.symm.trans hkey)
  · exact absurd (hkey.symm.trans hprimary) hi

/-- A query that publishes after some time was in flight then, or has been opened since. -/
theorem PublishedSince.next_le_or_inFlight (h : PublishedSince reg policy es later i id r)
    (h₀ : after reg policy es = some s₀) : s₀.next ≤ id ∨ (s₀.inFlight id).isSome := by
  obtain ⟨before, t, rest, s, p, rfl, hs, hp, _⟩ := h
  rcases inFlight_since h₀ hs hp with hold | hnext
  · exact Or.inr (by rw [hold]; rfl)
  · exact Or.inl hnext

theorem PublishedSince.cons (h : PublishedSince reg policy (es ++ [ev]) later i id r) :
    PublishedSince reg policy es (ev :: later) i id r := by
  obtain ⟨before, t, rest, s, p, rfl, hs, hp, hi⟩ := h
  exact ⟨ev :: before, t, rest, s, p, rfl, by rwa [List.append_cons], hp, hi⟩

/-- What is known of a device: what its slot holds, and what the cache answers a query with that begins
now. -/
def Shows (s : Monitor β) (i : UInt64) (r : Reading) : Prop :=
  s.inventory.get? i = some r ∨ ∃ now, (openCached i now s).1 = .answered (.cached r)

/-- While there are queries only, a device shows what it showed before, what was cached of it, or what has
been published since. -/
theorem published_of_shows (hes : ∀ ev ∈ es ++ later, ev.Sized)
    (hlater : ∀ ev ∈ later, ev.ofQuery = true) (h₀ : after reg policy es = some s₀)
    (h : after reg policy (es ++ later) = some s) (hi : Cache.Key.device i ≠ .primary)
    (hr : Shows s.monitor i r) :
    s₀.monitor.inventory.get? i = some r ∨ (∃ t, s₀.monitor.cache.held? (.device i) = some (t, r)) ∨
    ∃ id, PublishedSince reg policy es later i id r := by
  rcases hr with hget | ⟨now, hcached⟩
  · have hquiet := fun ev hev => replaces_of_ofQuery (hlater ev hev)
    rcases get?_since hquiet h₀ h hget with hold | ⟨before, ev, rest, s₁, rfl, h₁, hwrites⟩
    · exact Or.inl hold
    · cases hwrites with
      | publishes id now p hp hi _ =>
        exact Or.inr (Or.inr ⟨id, before, now, rest, s₁, p, rfl, h₁, hp, hi⟩)
      -- refreshing all devices is no query
      | stores _ _ _ => cases hlater (.stores i r) (by simp)
  · obtain ⟨t, hk⟩ := held?_of_openCached hcached
    rcases held?_since hes h₀ h hk with hold | ⟨before, id, rest, s₁, p, rfl, h₁, hp, hkey⟩
    · exact Or.inr (Or.inl ⟨t, hold⟩)
    · exact Or.inr (Or.inr ⟨id, before, t, rest, s₁, p, rfl, h₁, hp, index_of_key h₁ hp hi hkey⟩)

def queried : List Event := [.detects true, .finds [{}], .opens (.cached 0) 1]

end GpuTelemetry.Monitor
