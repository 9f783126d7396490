import GpuTelemetry.Proofs.Monitor.Traffic

namespace GpuTelemetry.Monitor

open Traffic (after)

variable {β : Type} {reg : Registry β} {policy : Cache.Policy} {es : List Event} {ev : Event}
  {s s' : Traffic β} {id : ℕ} {p : Pending} {since : List Event} {k : Cache.Key} {t : Instant}
  {r : Reading}

/-- The query numbered `id` was opened in this history, has read a slot then and is `p` since; these
events have followed. -/
def Opened (reg : Registry β) (policy : Cache.Policy) (es : List Event) (id : ℕ) (p : Pending)
    (since : List Event) : Prop :=
  ∃ earlier q now s, es = earlier ++ .opens q now :: since ∧ after reg policy earlier = some s ∧
    s.next = id ∧ (q.opening now s.monitor).1 = .pending p ∧
    s.monitor.inventory.slot? p.slot.index = some p.slot

/-- The reading `r` was published under `k` at `t` by the query `p`, which was in flight; `since` is all
that has followed its opening. -/
def Published (reg : Registry β) (policy : Cache.Policy) (es : List Event) (k : Cache.Key)
    (t : Instant) (r : Reading) (p : Pending) (since : List Event) : Prop :=
  ∃ id before s between later, es = before ++ .publishes id r t :: later ∧
    after reg policy before = some s ∧ s.inFlight id = some p ∧
    Opened reg policy before id p between ∧ since = between ++ .publishes id r t :: later ∧
    p.key = k ∧ p.slot.generation = s.monitor.inventory.generation

/-- At no time has a query in flight been overtaken so often that the generation came round to the one
it had read. -/
def Timely (reg : Registry β) (policy : Cache.Policy) (es : List Event) : Prop :=
  ∀ before later s id p since, es = before ++ later → after reg policy before = some s →
    s.inFlight id = some p → Opened reg policy before id p since →
    since.countP Event.turns < UInt64.size

theorem after_snoc : after reg policy (es ++ [ev]) = (after reg policy es).bind (·.step ev) := by
  simp [after, List.foldlM_append]

theorem after_snoc_eq_some (h : after reg policy (es ++ [ev]) = some s') :
    ∃ s, after reg policy es = some s ∧ s.step ev = some s' := by
  rw [after_snoc] at h
  exact Option.bind_eq_some_iff.1 h

/-- What holds after a history and is kept by every event that follows holds after them all. -/
theorem since_induction {P : List Event → Traffic β → Prop} (h : after reg policy es = some s)
    (start : P [] s)
    (next : ∀ since ev s₁ s₂, after reg policy (es ++ since) = some s₁ → P since s₁ →
      s₁.step ev = some s₂ → P (since ++ [ev]) s₂)
    (h' : after reg policy (es ++ since) = some s') : P since s' := by
  induction since using List.reverseRecOn generalizing s' with
  | nil =>
    rw [List.append_nil, h] at h'
    cases h'
    exact start
  | append_singleton since ev ih =>
    rw [← List.append_assoc] at h'
    obtain ⟨s₁, h₁, hs⟩ := after_snoc_eq_some h'
    exact next since ev s₁ s' h₁ (ih h₁) hs

/-- Every history leads to a sound state. -/
theorem sound_after (hes : ∀ ev ∈ es, ev.Sized) (h : after reg policy es = some s) : Sound s := by
  induction es using List.reverseRecOn generalizing s with
  | nil =>
    cases h
    exact sound_start reg policy
  | append_singleton es ev ih =>
    obtain ⟨s₀, h₀, hs⟩ := after_snoc_eq_some h
    obtain ⟨hes, hev⟩ := List.forall_mem_append.1 hes
    exact sound_step (ih hes h₀) (hev ev (List.mem_singleton_self ev)) hs

theorem drift_after (h : after reg policy es = some s)
    (h' : after reg policy (es ++ since) = some s') :
    Drift s.monitor.inventory s'.monitor.inventory since :=
  since_induction (P := fun since s' => Drift s.monitor.inventory s'.monitor.inventory since) h
    ⟨by simp, fun _ => rfl, fun _ => rfl⟩
    (fun _ _ _ _ _ hdrift hs => hdrift.trans (drift_of_step hs)) h'

theorem Opened.append (h : Opened reg policy es id p since) (later : List Event) :
    Opened reg policy (es ++ later) id p (since ++ later) := by
  obtain ⟨earlier, q, now, s, rfl, hs⟩ := h
  exact ⟨earlier, q, now, s, by simp, hs⟩

theorem Published.snoc (h : Published reg policy es k t r p since) :
    Published reg policy (es ++ [ev]) k t r p (since ++ [ev]) := by
  obtain ⟨id, before, s, between, later, rfl, hs, hp, hopen, rfl, hkey⟩ := h
  exact ⟨id, before, s, between, later ++ [ev], by simp, hs, hp, hopen, by simp, hkey⟩

/-- A query in flight after an event was in flight before, or the event opened it. -/
theorem inFlight_of_step (hs : s.step ev = some s') (hp : s'.inFlight id = some p) :
    s.inFlight id = some p ∨
    ∃ q now, ev = .opens q now ∧ id = s.next ∧ (q.opening now s.monitor).1 = .pending p := by
  have hclosed {j : ℕ} (h : Function.update s.inFlight j none id = some p) :
      s.inFlight id = some p := by
    rw [Function.update_apply] at h
    split at h
    · cases h
    · exact h
  cases stepped hs with
  | opens q now =>
    simp only [Function.update_apply] at hp
    split at hp
    · rename_i hid
      exact Or.inr ⟨q, now, rfl, hid, Opening.eq_pending hp⟩
    · exact Or.inl hp
  | publishes | drops | fails => exact Or.inl (hclosed hp)
  | _ => exact Or.inl hp

/-- Every query in flight was opened. -/
theorem opened_of_inFlight (h : after reg policy es = some s) (hp : s.inFlight id = some p) :
    ∃ since, Opened reg policy es id p since := by
  induction es using List.reverseRecOn generalizing s with
  | nil =>
    cases h
    cases hp
  | append_singleton es ev ih =>
    obtain ⟨s₀, h₀, hs⟩ := after_snoc_eq_some h
    rcases inFlight_of_step hs hp with hold | ⟨q, now, rfl, rfl, ho⟩
    · obtain ⟨since, hopen⟩ := ih h₀ hold
      exact ⟨since ++ [ev], hopen.append [ev]⟩
    · exact ⟨[], es, q, now, s₀, rfl, h₀, rfl, ho, (slot_of_opening ho).1⟩

/-- Unless the generation comes round, a query has been overtaken exactly if its generation is not the
current one. -/
theorem Opened.stale_iff (h : after reg policy es = some s)
    (hopen : Opened reg policy es id p since) (hfew : since.countP Event.turns < UInt64.size) :
    p.slot.generation ≠ s.monitor.inventory.generation ↔ ∃ ev ∈ since, ev.turns = true := by
  obtain ⟨earlier, q, now, s₀, rfl, h₀, rfl, ho, hread⟩ := hopen
  have hgen : s.monitor.inventory.generation =
      p.slot.generation + UInt64.ofNat (since.countP Event.turns) := by
    have hdrift := (drift_after h₀ h).generation
    -- the opening itself moves no generation
    rw [List.countP_cons_of_neg (by simp [Event.turns])] at hdrift
    rw [hdrift, (Inventory.slot?_eq_some.1 hread).2.2]
  rw [← List.countP_pos_iff, hgen]
  constructor
  · intro hne
    by_contra hzero
    have hcount : since.countP Event.turns = 0 := Nat.eq_zero_of_not_pos hzero
    exact hne (by simp [hcount])
  · intro hpos heq
    have hnat := congrArg UInt64.toNat heq
    rw [UInt64.toNat_add, UInt64.toNat_ofNat'] at hnat
    have hlt := p.slot.generation.toNat_lt
    unfold UInt64.size at hfew
    omega

/-- No device has the index that stands for the primary one: there are too few. -/
theorem device_ne_primary {i : UInt64} {n : ℕ} (hi : i.toNat < n) (hn : n < UInt64.size) :
    Cache.Key.device i ≠ .primary := by
  intro heq
  have hindex : i = UInt64.ofNat (UInt64.size - 1) := congrArg Cache.Key.value heq
  have hword : (UInt64.ofNat (UInt64.size - 1)).toNat = UInt64.size - 1 := by decide
  rw [hindex, hword] at hi
  omega

structure UpToDate (inv : Inventory) (k : Cache.Key) (p : Pending) (since : List Event) : Prop where
  kept : ∀ ev ∈ since, ev.replaces = false
  device : k ≠ .primary → k = .device p.slot.index
  primary : k = .primary →
    p.slot.index = inv.primaryIndex ∧ ∀ ev ∈ since, ev.turns = false

/-- A key stands for the same slot and the same device as long as nothing is replaced; that of the primary
one, as long as no other is chosen. -/
theorem UpToDate.snoc {inv inv' : Inventory} (h : UpToDate inv k p since)
    (hdrift : Drift inv inv' [ev]) (hev : ev.replaces = false)
    (hturns : k = .primary → ev.turns = false) : UpToDate inv' k p (since ++ [ev]) := by
  refine ⟨?_, h.device, fun hk => ⟨?_, ?_⟩⟩
  · exact List.forall_mem_append.2 ⟨h.kept, by simpa using hev⟩
  · rw [(h.primary hk).1]
    exact (hdrift.primary (by simpa using hturns hk)).symm
  · exact List.forall_mem_append.2 ⟨(h.primary hk).2, by simpa using hturns hk⟩

/-- A query whose generation is the current one has not been overtaken, so its key stands for the slot
it has read. -/
theorem Opened.upToDate (hes : ∀ ev ∈ es, ev.Sized) (h : after reg policy es = some s)
    (hopen : Opened reg policy es id p since) (hfew : since.countP Event.turns < UInt64.size)
    (hgen : p.slot.generation = s.monitor.inventory.generation) :
    UpToDate s.monitor.inventory p.key p since := by
  -- a turn since the opening would have changed the generation, few as they are
  have hquiet : ∀ ev ∈ since, ev.turns = false := by
    intro ev hev
    by_contra hturn
    have hstale := (hopen.stale_iff h hfew).2 ⟨ev, hev, by simpa using hturn⟩
    exact hstale hgen
  obtain ⟨earlier, q, now, s₀, rfl, h₀, rfl, ho, hread⟩ := hopen
  have hprimary : s.monitor.inventory.primaryIndex = s₀.monitor.inventory.primaryIndex :=
    (drift_after h₀ h).primary (by simpa [Event.turns] using hquiet)
  refine ⟨fun ev hev => ?_, fun hk => ?_, fun hk => ⟨?_, hquiet⟩⟩
  · have hturn := hquiet ev hev
    cases ev <;> first | rfl | exact hturn
  · exact (slot_of_opening ho).2.resolve_right fun hp => hk hp.1
  · rcases (slot_of_opening ho).2 with hdev | ⟨_, hi⟩
    · have hsize := (sound_after (fun ev hev => hes ev (by simp [hev])) h₀).size
      have hlt := Inventory.get?_lt (Inventory.slot?_eq_some.1 hread).1
      exact absurd (hdev.symm.trans hk) (device_ne_primary hlt hsize)
    · rw [hi, hprimary]

theorem Timely.of_append {later : List Event} (h : Timely reg policy (es ++ later)) :
    Timely reg policy es := by
  intro before later' s id p since heq
  subst heq
  exact h before (later' ++ later) s id p since (by simp)

/-- A history with fewer changes of the generation than there are generations is timely. -/
theorem timely_of_few_turns (h : es.countP Event.turns < UInt64.size) : Timely reg policy es := by
  intro before later s id p since heq _ _ hopen
  subst heq
  obtain ⟨earlier, q, now, s₀, rfl, _⟩ := hopen
  simp only [List.countP_append, List.countP_cons] at h
  omega

/-- Whatever is held was published, and its key still stands for the slot that was read. -/
theorem published_of_held (hes : ∀ ev ∈ es, ev.Sized) (htimely : Timely reg policy es)
    (h : after reg policy es = some s) (hk : s.monitor.cache.held? k = some (t, r)) :
    ∃ p since, Published reg policy es k t r p since ∧
      UpToDate s.monitor.inventory k p since := by
  induction es using List.reverseRecOn generalizing s with
  | nil =>
    cases h
    cases hk
  | append_singleton es ev ih =>
    obtain ⟨s₀, h₀, hs⟩ := after_snoc_eq_some h
    have hsized := (List.forall_mem_append.1 hes).1
    have hdrift := drift_of_step hs
    rcases held?_of_step (sound_after hsized h₀) hs hk with
      ⟨hold, hev, hturns⟩ | ⟨id, p, rfl, hp, rfl, hgen, _⟩
    -- held since before, and the event was not one that would have dropped it
    · obtain ⟨p, since, hpub, hdate⟩ := ih hsized htimely.of_append h₀ hold
      exact ⟨p, since ++ [ev], hpub.snoc, hdate.snoc hdrift hev hturns⟩
    -- published just now, by a query that had not been overtaken
    · obtain ⟨between, hopen⟩ := opened_of_inFlight h₀ hp
      have hfew := htimely es [.publishes id r t] s₀ id p between rfl h₀ hp hopen
      exact ⟨p, between ++ [.publishes id r t],
        ⟨id, es, s₀, between, [], rfl, h₀, hp, hopen, rfl, rfl, hgen⟩,
        (hopen.upToDate hsized h₀ hfew hgen).snoc hdrift rfl fun _ => rfl⟩

/-- **Cached snapshots are of what their keys stand for.** In every state that queries in flight, other
operations and any interleaving of their steps can reach: what is cached for device `i` was published by
a query that read slot `i` after the collection was last replaced; what is cached for the primary device
by one that read the slot that is the primary one, after the last replacement and after the last choice
of a primary device; and a query that has been overtaken by either changes nothing when it publishes,
and still answers with its fresh reading. -/
theorem cached_since_last_turn (hes : ∀ ev ∈ es, ev.Sized) (htimely : Timely reg policy es)
    (h : after reg policy es = some s) :
    (∀ i t r, Cache.Key.device i ≠ .primary → s.monitor.cache.held? (.device i) = some (t, r) →
      ∃ p since, Published reg policy es (.device i) t r p since ∧ p.slot.index = i ∧
        ∀ ev ∈ since, ev.replaces = false) ∧
    (∀ t r, s.monitor.cache.held? .primary = some (t, r) →
      ∃ p since, Published reg policy es .primary t r p since ∧
        p.slot.index = s.monitor.inventory.primaryIndex ∧ ∀ ev ∈ since, ev.turns = false) ∧
    ∀ id p, s.inFlight id = some p → ∃ since, Opened reg policy es id p since ∧
      (p.slot.generation ≠ s.monitor.inventory.generation ↔ ∃ ev ∈ since, ev.turns = true) ∧
      (p.slot.generation ≠ s.monitor.inventory.generation → ∀ fresh now,
        publish p fresh now s.monitor = (.fresh fresh, s.monitor)) := by
  refine ⟨fun i t r hi hk => ?_, fun t r hk => ?_, fun id p hp => ?_⟩
  · obtain ⟨p, since, hpub, hdate⟩ := published_of_held hes htimely h hk
    have hindex : i = p.slot.index := congrArg Cache.Key.value (hdate.device hi)
    exact ⟨p, since, hpub, hindex.symm, hdate.kept⟩
  · obtain ⟨p, since, hpub, hdate⟩ := published_of_held hes htimely h hk
    exact ⟨p, since, hpub, hdate.primary rfl⟩
  · -- who is still in flight has been opened, and drops what it reads if it is stale
    obtain ⟨since, hopen⟩ := opened_of_inFlight h hp
    have hfew := htimely es [] s id p since (by simp) h hp hopen
    exact ⟨since, hopen, hopen.stale_iff h hfew, fun hstale => publish_of_stale hstale⟩

def overtaken : List Event :=
  [.detects true, .finds [{ active := some true }, {}], .opens (.cached 1) 5, .selects 1 .ok,
    .publishes 0 { active := some false } 6, .opens (.cached 1) 7, .publishes 1 {} 8]

/-- Two queries of device 1; the first one is overtaken by the choice of another primary device. -/
theorem cached_since_last_turn_of_overtaken : ∃ s,
    after ({} : Registry Unit) {} overtaken = some s ∧
    s.monitor.cache.held? (.device 1) = some (8, {}) ∧
    ∃ p since, Published ({} : Registry Unit) {} overtaken (.device 1) 8 {} p since ∧
      p.slot.index = 1 ∧ ∀ ev ∈ since, ev.replaces = false := by
  have hes : ∀ ev ∈ overtaken, ev.Sized := by
    simp [overtaken, Event.Sized, UInt64.size]
  refine ⟨_, rfl, rfl, ?_⟩
  exact (cached_since_last_turn hes (timely_of_few_turns (by decide)) rfl).1 1 8 {} (by decide) rfl

end GpuTelemetry.Monitor
