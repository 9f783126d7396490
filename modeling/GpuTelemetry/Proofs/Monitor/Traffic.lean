import GpuTelemetry.Monitor.Basic
import GpuTelemetry.Proofs.Cache.View
import GpuTelemetry.Proofs.Inventory
import Mathlib.Data.List.Induction
import Mathlib.Logic.Function.Basic
/-!
A monitor with any number of queries in flight. A query is open from its first step to its second, and
in between anything may happen: other queries, detections, another choice of the primary device, the
steps of a refresh of all devices. Each event is one step of the monitor, and a history is any order of
events that the monitor allows.
-/

namespace GpuTelemetry

def Opening.pending? : Opening → Option Pending
  | .answered _ => none
  | .pending p => some p

theorem Opening.eq_pending {o : Opening} {p : Pending} (h : o.pending? = some p) : o = .pending p := by
  cases o with
  | answered a => cases h
  | pending p' => exact congrArg Opening.pending (Option.some.inj h)

namespace Monitor

variable {β : Type}

inductive Query where
  | cached (index : UInt64)
  | cachedPrimary
  | refresh (index : UInt64)
  | refreshPrimary

def Query.opening (q : Query) (now : Instant) (s : Monitor β) : Opening × Monitor β :=
  match q with
  | cached i => openCached i now s
  | cachedPrimary => openPrimary now s
  | refresh i => openRefresh i s
  | refreshPrimary => openRefreshPrimary s

inductive Event where
  | opens (q : Query) (now : Instant)
  /-- The backend call of a query came back with a reading. -/
  | publishes (id : ℕ) (fresh : Reading) (now : Instant)
  /-- The backend call of a query failed. -/
  | fails (id : ℕ)
  /-- A detection begins; the first one only while nothing has been stored. -/
  | detects (first : Bool)
  | finds (found : List Reading)
  | selects (index : UInt64) (status : Status)
  /-- Refreshing all devices: one of them is stored. -/
  | stores (index : UInt64) (fresh : Reading)
  /-- Refreshing all devices: the cache is emptied. -/
  | empties

namespace Event

def replaces : Event → Bool
  | finds _ => true
  | _ => false

/-- The generation moves: the collection is replaced or another primary device is chosen. -/
def turns : Event → Bool
  | finds _ => true
  | selects _ status => status.isOk
  | _ => false

def Sized : Event → Prop
  | finds found => found.length < UInt64.size
  | _ => True

end Event

structure Traffic (β : Type) where
  monitor : Monitor β
  /-- The queries in flight, numbered in the order they were opened. -/
  inFlight : ℕ → Option Pending := fun _ => none
  next : ℕ := 0
  /-- The detection under way, and whether it is the first. -/
  detecting : Option Bool := none

namespace Traffic

def start (reg : Registry β) (policy : Cache.Policy) : Traffic β := { monitor := new reg policy }

/-- What an event makes of the state; nothing if it cannot happen there. -/
def step (s : Traffic β) : Event → Option (Traffic β)
  | .opens q now =>
    some { s with
      monitor := (q.opening now s.monitor).2
      inFlight := Function.update s.inFlight s.next (q.opening now s.monitor).1.pending?
      next := s.next + 1 }
  | .publishes id fresh now =>
    (s.inFlight id).map fun p => { s with
      monitor := (publish p fresh now s.monitor).2
      inFlight := Function.update s.inFlight id none }
  | .fails id =>
    (s.inFlight id).map fun _ => { s with inFlight := Function.update s.inFlight id none }
  | .detects first =>
    if s.detecting = none ∧ (first = true → s.monitor.inventory.initialized = false) then
      some { s with detecting := some first }
    else none
  | .finds found =>
    s.detecting.map fun first => { s with
      monitor := if first then install found s.monitor else reinstall found s.monitor
      detecting := none }
  | .selects index status =>
    if (selectPrimary index s.monitor).1 = status then
      some { s with monitor := (selectPrimary index s.monitor).2 }
    else none
  | .stores index fresh => some { s with monitor := storeSame index fresh s.monitor }
  | .empties => some { s with monitor := clearCache s.monitor }

def after (reg : Registry β) (policy : Cache.Policy) (es : List Event) : Option (Traffic β) :=
  es.foldlM step (start reg policy)

end Traffic

/-! ### What the first step of a query does -/

section Opening

variable {q : Query} {now t : Instant} {s : Monitor β} {p : Pending} {k : Cache.Key} {r : Reading}

theorem ofSlot_eq_pending {o : Option Slot} (h : Opening.ofSlot k o = .pending p) :
    o = some p.slot ∧ p.key = k := by
  cases o with
  | none => cases h
  | some slot =>
    cases h
    exact ⟨rfl, rfl⟩

theorem openRefresh_cases (i : UInt64) (s : Monitor β) :
    openRefresh i s = (.ofSlot (.device i) (s.inventory.slot? i), s.invalidate (.device i)) ∨
    openRefresh i s = (.ofSlot (.device i) (s.inventory.slot? i),
      (s.invalidate (.device i)).invalidate .primary) := by
  unfold openRefresh
  dsimp only
  split
  · exact Or.inr rfl
  · exact Or.inl rfl

/-- The first step of a query leaves the collection alone. -/
theorem inventory_opening : (q.opening now s).2.inventory = s.inventory := by
  cases q with
  | cached i =>
    simp only [Query.opening, openCached]
    split <;> rfl
  | cachedPrimary =>
    simp only [Query.opening, openPrimary]
    split
    · rfl
    · split <;> rfl
  | refresh i =>
    rcases openRefresh_cases i s with h | h <;> rw [Query.opening, h] <;> rfl
  | refreshPrimary =>
    simp only [Query.opening, openRefreshPrimary, invalidate]
    split <;> rfl

theorem cache_openCached (i : UInt64) (now : Instant) (s : Monitor β) :
    (openCached i now s).2.cache = (s.cache.get now (.device i)).2 := by
  unfold openCached
  split <;> simp_all

theorem cache_openPrimary (now : Instant) (s : Monitor β) :
    (openPrimary now s).2.cache = (s.cache.get now .primary).2 := by
  unfold openPrimary
  split
  · simp_all
  · split <;> simp_all

/-- Nothing comes into the cache in the first step of a query. -/
theorem held?_of_opening (h : (q.opening now s).2.cache.held? k = some (t, r)) :
    s.cache.held? k = some (t, r) := by
  cases q with
  | cached i =>
    rw [Query.opening, cache_openCached] at h
    exact Cache.held?_of_get h
  | cachedPrimary =>
    rw [Query.opening, cache_openPrimary] at h
    exact Cache.held?_of_get h
  | refresh i =>
    rw [Query.opening] at h
    rcases openRefresh_cases i s with ho | ho
    · rw [ho] at h
      exact (Cache.held?_of_invalidate h).2
    · rw [ho] at h
      exact (Cache.held?_of_invalidate (Cache.held?_of_invalidate h).2).2
  | refreshPrimary =>
    simp only [Query.opening, openRefreshPrimary, invalidate] at h
    split at h
    · exact h
    · exact (Cache.held?_of_invalidate (Cache.held?_of_invalidate h).2).2

def Query.index (inv : Inventory) : Query → UInt64
  | .cached i | .refresh i => i
  | .cachedPrimary | .refreshPrimary => inv.primaryIndex

def Query.key (inv : Inventory) : Query → Cache.Key
  | .cached i | .refresh i => .device i
  | .cachedPrimary => .primary
  | .refreshPrimary => .device inv.primaryIndex

/-- A query in flight has read the slot it asks for. -/
theorem pending_of_opening (h : (q.opening now s).1 = .pending p) :
    p.key = q.key s.inventory ∧ s.inventory.slot? (q.index s.inventory) = some p.slot := by
  cases q with
  | cached i =>
    simp only [Query.opening, openCached] at h
    split at h
    · cases h
    · exact (ofSlot_eq_pending h).symm
  | cachedPrimary =>
    simp only [Query.opening, openPrimary] at h
    split at h
    · cases h
    · split at h
      · cases h
      · rename_i slot hs
        cases h
        exact ⟨rfl, hs⟩
  | refresh i =>
    have ho : (openRefresh i s).1 = .ofSlot (.device i) (s.inventory.slot? i) := by
      rcases openRefresh_cases i s with ho | ho <;> rw [ho]
    exact (ofSlot_eq_pending (ho.symm.trans h)).symm
  | refreshPrimary =>
    simp only [Query.opening, openRefreshPrimary] at h
    split at h
    · cases h
    · rename_i slot hs
      cases h
      -- here the key is made from the slot and not from the query
      have hi : slot.index = s.inventory.primaryIndex := (Inventory.slot?_eq_some.1 hs).2.1
      exact ⟨congrArg Cache.Key.device hi, hs⟩

/-- It was asked under the key of that slot or under that of the primary device. -/
theorem slot_of_opening (h : (q.opening now s).1 = .pending p) :
    s.inventory.slot? p.slot.index = some p.slot ∧
      (p.key = .device p.slot.index ∨
        p.key = .primary ∧ p.slot.index = s.inventory.primaryIndex) := by
  obtain ⟨hk, hs⟩ := pending_of_opening h
  have hi : p.slot.index = q.index s.inventory := (Inventory.slot?_eq_some.1 hs).2.1
  rw [hi, hk]
  refine ⟨hs, ?_⟩
  cases q with
  | cached i | refresh i | refreshPrimary => exact Or.inl rfl
  | cachedPrimary => exact Or.inr ⟨rfl, rfl⟩

end Opening

/-! ### What one event does -/

section Step

variable {s s' : Traffic β} {ev : Event} {k : Cache.Key} {t : Instant} {r : Reading}

/-- Publishing changes the slot and the cache, or nothing if the generation has moved. -/
theorem publish_cases (p : Pending) (fresh : Reading) (now : Instant) (s : Monitor β) :
    ((p.slot.generation = s.inventory.generation ∧
        p.slot.index.toNat < s.inventory.devices.length) ∧
      publish p fresh now s = (.fresh fresh, { s with
        inventory := s.inventory.set p.slot.index fresh, cache := s.cache.put now p.key fresh })) ∨
    publish p fresh now s = (.fresh fresh, s) := by
  unfold publish Inventory.updateSlot
  by_cases h : p.slot.generation = s.inventory.generation ∧
      p.slot.index.toNat < s.inventory.devices.length
  · rw [if_pos h]
    exact Or.inl ⟨h, rfl⟩
  · rw [if_neg h]
    exact Or.inr rfl

theorem publish_of_stale {p : Pending} {s : Monitor β}
    (h : p.slot.generation ≠ s.inventory.generation) (fresh : Reading) (now : Instant) :
    publish p fresh now s = (.fresh fresh, s) := by
  rcases publish_cases p fresh now s with ⟨hcurrent, _⟩ | hs
  · exact absurd hcurrent.1 h
  · exact hs

theorem selectPrimary_cases (i : UInt64) (s : Monitor β) :
    (i.toNat < s.inventory.devices.length ∧ selectPrimary i s = (.ok, { s with
      inventory := { s.inventory with
        primaryIndex := i, generation := s.inventory.generation + 1 }
      cache := s.cache.invalidate .primary })) ∨
    selectPrimary i s = (.notFound, s) := by
  unfold selectPrimary Inventory.setPrimary
  by_cases h : i.toNat < s.inventory.devices.length
  · rw [if_pos h]
    exact Or.inl ⟨h, rfl⟩
  · rw [if_neg h]
    exact Or.inr rfl

/-- All that an event can do. -/
inductive Stepped (s : Traffic β) : Event → Traffic β → Prop where
  | opens (q : Query) (now : Instant) : Stepped s (.opens q now) { s with
      monitor := (q.opening now s.monitor).2
      inFlight := Function.update s.inFlight s.next (q.opening now s.monitor).1.pending?
      next := s.next + 1 }
  | publishes {id : ℕ} {p : Pending} (fresh : Reading) (now : Instant)
      (hp : s.inFlight id = some p) (hcurrent : p.slot.generation = s.monitor.inventory.generation)
      (hlt : p.slot.index.toNat < s.monitor.inventory.devices.length) :
      Stepped s (.publishes id fresh now) { s with
        monitor := { s.monitor with
          inventory := s.monitor.inventory.set p.slot.index fresh
          cache := s.monitor.cache.put now p.key fresh }
        inFlight := Function.update s.inFlight id none }
  /-- A reading that came too late. -/
  | drops {id : ℕ} {p : Pending} (fresh : Reading) (now : Instant) (hp : s.inFlight id = some p) :
      Stepped s (.publishes id fresh now)
        { s with inFlight := Function.update s.inFlight id none }
  | fails {id : ℕ} {p : Pending} (hp : s.inFlight id = some p) :
      Stepped s (.fails id) { s with inFlight := Function.update s.inFlight id none }
  | detects (first : Bool) (hfree : s.detecting = none)
      (hblank : first = true → s.monitor.inventory.initialized = false) :
      Stepped s (.detects first) { s with detecting := some first }
  | installs (found : List Reading) (hfirst : s.detecting = some true) :
      Stepped s (.finds found) { s with monitor := install found s.monitor, detecting := none }
  | reinstalls (found : List Reading) (hagain : s.detecting = some false) :
      Stepped s (.finds found) { s with monitor := reinstall found s.monitor, detecting := none }
  | selects (i : UInt64) (hlt : i.toNat < s.monitor.inventory.devices.length) :
      Stepped s (.selects i .ok) { s with
        monitor := { s.monitor with
          inventory := { s.monitor.inventory with
            primaryIndex := i, generation := s.monitor.inventory.generation + 1 }
          cache := s.monitor.cache.invalidate .primary } }
  | declines (i : UInt64) : Stepped s (.selects i .notFound) s
  | stores {old : Reading} (i : UInt64) (fresh : Reading)
      (hold : s.monitor.inventory.get? i = some old) (hsame : old.same fresh = true) :
      Stepped s (.stores i fresh)
        { s with monitor := { s.monitor with inventory := s.monitor.inventory.set i fresh } }
  /-- The slot is of another device by now. -/
  | keeps (i : UInt64) (fresh : Reading) : Stepped s (.stores i fresh) s
  | empties : Stepped s .empties { s with monitor := clearCache s.monitor }

theorem stepped (h : s.step ev = some s') : Stepped s ev s' := by
  cases ev with
  | opens q now =>
    cases h
    exact .opens q now
  | publishes id fresh now =>
    obtain ⟨p, hp, rfl⟩ := Option.map_eq_some_iff.1 h
    rcases publish_cases p fresh now s.monitor with ⟨⟨hcurrent, hlt⟩, hpub⟩ | hpub
    · rw [hpub]
      exact .publishes fresh now hp hcurrent hlt
    · rw [hpub]
      exact .drops fresh now hp
  | fails id =>
    obtain ⟨p, hp, rfl⟩ := Option.map_eq_some_iff.1 h
    exact .fails hp
  | detects first =>
    obtain ⟨⟨hfree, hblank⟩, rfl⟩ := Option.ite_some_none_eq_some.1 h
    exact .detects first hfree hblank
  | finds found =>
    obtain ⟨first, hd, rfl⟩ := Option.map_eq_some_iff.1 h
    cases first with
    | true => exact .installs found hd
    | false => exact .reinstalls found hd
  | selects i status =>
    obtain ⟨rfl, rfl⟩ := Option.ite_some_none_eq_some.1 h
    rcases selectPrimary_cases i s.monitor with ⟨hlt, hsel⟩ | hsel
    · rw [hsel]
      exact .selects i hlt
    · rw [hsel]
      exact .declines i
  | stores i fresh =>
    cases h
    rw [storeSame]
    rcases s.monitor.inventory.updateSame_cases i fresh with ⟨old, hold, hsame, hu⟩ | hu
    · rw [hu]
      exact .stores i fresh hold hsame
    · rw [hu]
      exact .keeps i fresh
  | empties =>
    cases h
    exact .empties

structure Drift (inv inv' : Inventory) (since : List Event) : Prop where
  generation : inv'.generation = inv.generation + UInt64.ofNat (since.countP Event.turns)
  size : (∀ ev ∈ since, ev.replaces = false) → inv'.devices.length = inv.devices.length
  primary : (∀ ev ∈ since, ev.turns = false) → inv'.primaryIndex = inv.primaryIndex

theorem Drift.trans {a b c : Inventory} {es es' : List Event} (h : Drift a b es)
    (h' : Drift b c es') : Drift a c (es ++ es') := by
  refine ⟨?_, fun hes => ?_, fun hes => ?_⟩
  · calc c.generation = b.generation + UInt64.ofNat (es'.countP Event.turns) := h'.generation
      _ = a.generation + UInt64.ofNat (es.countP Event.turns) +
          UInt64.ofNat (es'.countP Event.turns) := by rw [h.generation]
      _ = a.generation + UInt64.ofNat ((es ++ es').countP Event.turns) := by
          rw [List.countP_append, UInt64.ofNat_add, UInt64.add_assoc]
  · obtain ⟨hl, hr⟩ := List.forall_mem_append.1 hes
    exact (h'.size hr).trans (h.size hl)
  · obtain ⟨hl, hr⟩ := List.forall_mem_append.1 hes
    exact (h'.primary hr).trans (h.primary hl)

theorem drift_of_set {inv inv' : Inventory} (hev : ev.turns = false)
    (h : inv' = inv ∨ ∃ i r, inv' = inv.set i r) : Drift inv inv' [ev] := by
  have hgen : inv.generation + UInt64.ofNat ([ev].countP Event.turns) = inv.generation := by
    simp [hev]
  rcases h with rfl | ⟨i, r, rfl⟩
  · exact ⟨hgen.symm, fun _ => rfl, fun _ => rfl⟩
  · exact ⟨hgen.symm, fun _ => by simp [Inventory.set], fun _ => rfl⟩

/-- One event turns the generation by one at most. -/
theorem drift_of_step (h : s.step ev = some s') :
    Drift s.monitor.inventory s'.monitor.inventory [ev] := by
  -- unless it is replaced, the collection differs in one slot at most
  cases stepped h with
  | opens q now => exact drift_of_set rfl (Or.inl inventory_opening)
  | publishes fresh now hp hcurrent hlt => exact drift_of_set rfl (Or.inr ⟨_, fresh, rfl⟩)
  | stores i fresh hold hsame => exact drift_of_set rfl (Or.inr ⟨i, fresh, rfl⟩)
  | drops | fails | detects | declines | keeps | empties =>
    exact drift_of_set rfl (Or.inl rfl)
  | installs found | reinstalls found =>
    refine ⟨rfl, fun hes => ?_, fun hes => ?_⟩
    · cases hes _ (List.mem_singleton_self _)
    · cases hes _ (List.mem_singleton_self _)
  | selects i hlt =>
    refine ⟨rfl, fun _ => rfl, fun hes => ?_⟩
    cases hes _ (List.mem_singleton_self _)

/-- Devices can be counted, and before the first detection there is nothing: no device, nothing in the
cache, no query in flight. -/
structure Sound (s : Traffic β) : Prop where
  size : s.monitor.inventory.devices.length < UInt64.size
  first : s.detecting = some true → s.monitor.inventory.initialized = false
  empty : s.monitor.inventory.initialized = false → s.monitor.inventory.devices = []
  vacant : s.monitor.inventory.initialized = false → ∀ k, s.monitor.cache.held? k = none
  idle : s.monitor.inventory.initialized = false → ∀ id, s.inFlight id = none

theorem sound_start (reg : Registry β) (policy : Cache.Policy) : Sound (Traffic.start reg policy) :=
  ⟨(by decide : 0 < UInt64.size), nofun, fun _ => rfl, fun _ _ => rfl, fun _ _ => rfl⟩

/-- Once a collection is stored only its size and the detection lock matter. -/
theorem sound_of_initialized (hi : s.monitor.inventory.initialized = true)
    (hsize : s.monitor.inventory.devices.length < UInt64.size)
    (hfirst : s.detecting ≠ some true) : Sound s := by
  have hno : s.monitor.inventory.initialized ≠ false := by simp [hi]
  exact ⟨hsize, fun h => absurd h hfirst, fun h => absurd h hno, fun h => absurd h hno,
    fun h => absurd h hno⟩

theorem Sound.initialized_of_inFlight {id : ℕ} {p : Pending} (h : Sound s)
    (hp : s.inFlight id = some p) : s.monitor.inventory.initialized = true := by
  cases hi : s.monitor.inventory.initialized with
  | true => rfl
  | false => simp [h.idle hi] at hp

theorem Sound.detecting_ne (h : Sound s) (hi : s.monitor.inventory.initialized = true) :
    s.detecting ≠ some true := by
  intro hd
  rw [h.first hd] at hi
  cases hi

/-- Without devices there is no slot to read, and a query is answered at once. -/
theorem pending?_of_no_devices {q : Query} {now : Instant} {s : Monitor β}
    (h : s.inventory.devices = []) : (q.opening now s).1.pending? = none := by
  cases ho : (q.opening now s).1 with
  | answered a => rfl
  | pending p =>
    have hread := (slot_of_opening ho).1
    simp [Inventory.slot?, Inventory.get?, h] at hread

/-- Opening a query leaves the state sound. -/
theorem Sound.opens (h : Sound s) (q : Query) (now : Instant) : Sound { s with
    monitor := (q.opening now s.monitor).2
    inFlight := Function.update s.inFlight s.next (q.opening now s.monitor).1.pending?
    next := s.next + 1 } := by
  have hinv : (q.opening now s.monitor).2.inventory = s.monitor.inventory := inventory_opening
  refine ⟨?_, ?_, ?_, fun hi k => ?_, fun hi id => ?_⟩
  · simpa only [hinv] using h.size
  · simpa only [hinv] using h.first
  · simpa only [hinv] using h.empty
  · rw [hinv] at hi
    cases hk : (q.opening now s.monitor).2.cache.held? k with
    | none => rfl
    | some x =>
      have hold := held?_of_opening hk
      simp [h.vacant hi] at hold
  · rw [hinv] at hi
    simp only [pending?_of_no_devices (h.empty hi), Function.update_apply]
    split
    · rfl
    · exact h.idle hi id

/-- Every event leaves the state sound. -/
theorem sound_step (h : Sound s) (hev : ev.Sized) (hs : s.step ev = some s') : Sound s' := by
  cases stepped hs with
  | opens q now => exact h.opens q now
  | publishes fresh now hp hcurrent hlt =>
    -- a query in flight has read a slot, so a collection is stored
    have hi := h.initialized_of_inFlight hp
    exact sound_of_initialized hi (by simpa [Inventory.set] using h.size) (h.detecting_ne hi)
  | drops fresh now hp | fails hp =>
    have hi := h.initialized_of_inFlight hp
    exact sound_of_initialized hi h.size (h.detecting_ne hi)
  | detects first hfree hblank =>
    exact ⟨h.size, fun hd => hblank (Option.some.inj hd), h.empty, h.vacant, h.idle⟩
  | installs found | reinstalls found => exact sound_of_initialized rfl hev (by simp)
  | selects i hlt =>
    refine ⟨h.size, h.first, h.empty, fun hi k => ?_, h.idle⟩
    rw [Cache.held?_invalidate, h.vacant hi]
    split <;> rfl
  | declines i | keeps i => exact h
  | stores i fresh hold hsame =>
    refine ⟨by simpa [Inventory.set] using h.size, h.first, fun hi => ?_, h.vacant, h.idle⟩
    simp [Inventory.set, h.empty hi]
  | empties => exact ⟨h.size, h.first, h.empty, fun _ _ => rfl, h.idle⟩

/-- What is held after an event was held before, and not by a key the event is about; or a query whose
generation was still current has just published it. -/
theorem held?_of_step (h : Sound s) (hs : s.step ev = some s')
    (hk : s'.monitor.cache.held? k = some (t, r)) :
    (s.monitor.cache.held? k = some (t, r) ∧ ev.replaces = false ∧
      (k = .primary → ev.turns = false)) ∨
    ∃ id p, ev = .publishes id r t ∧ s.inFlight id = some p ∧ p.key = k ∧
      p.slot.generation = s.monitor.inventory.generation ∧
      s.monitor.cache.policy.maxEntries ≠ some 0 := by
  cases stepped hs with
  | opens q now => exact Or.inl ⟨held?_of_opening hk, rfl, fun _ => rfl⟩
  | @publishes id p fresh now hp hcurrent hlt =>
    by_cases hkey : k = p.key
    · subst hkey
      -- where there is no room the entry of this key, if any, is an old one
      by_cases hz : s.monitor.cache.policy.maxEntries = some 0
      · rw [Cache.put_of_no_room hz] at hk
        exact Or.inl ⟨hk, rfl, fun _ => rfl⟩
      · rw [Cache.held?_put_self hz] at hk
        cases hk
        exact Or.inr ⟨id, p, rfl, hp, rfl, hcurrent, hz⟩
    · exact Or.inl ⟨Cache.held?_of_put hkey hk, rfl, fun _ => rfl⟩
  | drops | fails | detects | declines | stores | keeps => exact Or.inl ⟨hk, rfl, fun _ => rfl⟩
  | installs found hfirst =>
    -- the first detection leaves the cache alone, but there is nothing in it yet
    have hnone := h.vacant (h.first hfirst) k
    simp [install, hnone] at hk
  | reinstalls found => simp [reinstall] at hk
  | selects i hlt =>
    obtain ⟨hne, hold⟩ := Cache.held?_of_invalidate hk
    exact Or.inl ⟨hold, rfl, fun heq => absurd heq hne⟩
  | empties => simp [clearCache] at hk

end Step

end Monitor

end GpuTelemetry
