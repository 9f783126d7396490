import GpuTelemetry.Proofs.Cache.View
import GpuTelemetry.Proofs.Monitor.Sequential
import GpuTelemetry.Proofs.Monitor.Uncached
import GpuTelemetry.Proofs.Reading.Identity
/-!
A cache does not show. Where detection always finds the same devices and a refresh depends on the
reading alone, and refreshing what a refresh gave changes nothing more, a monitor answers every call as
one would that has no cache at all. So two monitors that differ in their cache and in their clock cannot
be told apart by snapshots, statuses or the collection.
-/

namespace GpuTelemetry.Monitor

open Job (Ends ends_pure ends_bind ends_map)

/-! ### What the cache holds -/

def indexOf (inv : Inventory) (k : Cache.Key) : UInt64 :=
  if k.isPrimary then inv.primaryIndex else k.value

/-- Every snapshot held is what its slot holds, and reading the device again gives it once more. -/
structure Faithful (f : Reading → Status × Reading) (inv : Inventory) (c : Cache) : Prop where
  first : inv.initialized = false → inv.devices = []
  primary : Cache.Key.device inv.primaryIndex ≠ .primary
  holds : ∀ k e, c.item? k = some e →
    inv.get? (indexOf inv k) = some e.snapshot ∧ f e.snapshot = (.ok, e.snapshot)

section Faithful

variable {f : Reading → Status × Reading} {found : List Reading} {inv : Inventory} {c : Cache}
  {k : Cache.Key} {i : UInt64} {r : Reading} {now : Instant}

theorem indexOf_primary : indexOf inv .primary = inv.primaryIndex := by
  simp [indexOf, Cache.Key.isPrimary]

theorem indexOf_device (h : Cache.Key.device i ≠ .primary) : indexOf inv (.device i) = i := by
  have hk : (Cache.Key.device i).isPrimary = false := by simpa [Cache.Key.isPrimary] using h
  rw [indexOf, hk]
  rfl

theorem Faithful.get (h : Faithful f inv c) (now : Instant) (k : Cache.Key) :
    Faithful f inv (c.get now k).2 := by
  refine ⟨h.first, h.primary, fun j e he => ?_⟩
  rw [Cache.item?_get] at he
  split at he
  · obtain ⟨e', he', rfl⟩ := Option.map_eq_some_iff.1 he
    obtain ⟨hk, _⟩ := Option.filter_eq_some_iff.1 he'
    have hj : j = k := ‹_›
    exact hj ▸ h.holds k e' hk
  · exact h.holds j e he

/-- What is found in the cache is in its slot, and a refresh would give it again. -/
theorem Faithful.hit (h : Faithful f inv c) (hget : (c.get now k).1 = some r) :
    inv.get? (indexOf inv k) = some r ∧ f r = (.ok, r) := by
  rw [Cache.get_eq] at hget
  obtain ⟨e, he, rfl⟩ := Option.map_eq_some_iff.1 hget
  exact h.holds k e (Option.filter_eq_some_iff.1 he).1

theorem Faithful.invalidate (h : Faithful f inv c) (k : Cache.Key) :
    Faithful f inv (c.invalidate k) := by
  refine ⟨h.first, h.primary, fun j e he => ?_⟩
  rw [Cache.item?_invalidate] at he
  split at he
  · cases he
  · exact h.holds j e he

theorem faithful_of_empty (hi : inv.initialized = true)
    (hp : Cache.Key.device inv.primaryIndex ≠ .primary) (hc : ∀ k, c.item? k = none) :
    Faithful f inv c := by
  refine ⟨fun hno => ?_, hp, fun k e he => ?_⟩
  · rw [hi] at hno
    cases hno
  · rw [hc k] at he
    cases he

theorem faithful_replace (rs : List Reading) (hc : ∀ k, c.item? k = none) :
    Faithful f (inv.replace rs) c :=
  faithful_of_empty rfl (by decide : Cache.Key.device 0 ≠ .primary) hc

/-- Before the first detection there is nothing a snapshot could be of. -/
theorem Faithful.item?_of_uninitialized (h : Faithful f inv c) (hi : inv.initialized = false) :
    c.item? k = none := by
  cases he : c.item? k with
  | none => rfl
  | some e =>
    have hget := (h.holds k e he).1
    simp [Inventory.get?, h.first hi] at hget

/-- A reading that is stored in its slot and in the cache spoils no other snapshot: one of the same
slot holds what was read there before, which a refresh does not change. -/
theorem Faithful.publish (h : Faithful f inv c)
    (hidem : ∀ r r', f r = (.ok, r') → f r' = (.ok, r')) (hk : indexOf inv k = i)
    (hr : inv.get? i = some r) (hok : (f r).1 = .ok) :
    Faithful f (inv.set i (f r).2) (c.put now k (f r).2) := by
  have hkept : ∀ j e, c.item? j = some e →
      (inv.set i (f r).2).get? (indexOf inv j) = some e.snapshot ∧
        f e.snapshot = (.ok, e.snapshot) := by
    intro j e he
    obtain ⟨hget, hfix⟩ := h.holds j e he
    refine ⟨?_, hfix⟩
    by_cases hi : indexOf inv j = i
    -- a snapshot of this slot is the reading itself, and refreshing that changes nothing
    · have hre : r = e.snapshot := Option.some.inj (hr.symm.trans (hi ▸ hget))
      rw [hi, Inventory.get?_set_self hr, hre, hfix]
    · rw [Inventory.get?_set_of_ne hi, hget]
  refine ⟨fun hi => ?_, h.primary, fun j e he => ?_⟩
  · simp [Inventory.get?, h.first hi] at hr
  change (inv.set i (f r).2).get? (indexOf inv j) = _ ∧ _
  by_cases hj : j = k
  · subst hj
    by_cases hz : c.policy.maxEntries = some 0
    -- without room nothing is stored
    · exact hkept j e (Cache.put_of_no_room hz ▸ he)
    · rw [Cache.item?_put_self hz] at he
      cases he
      rw [hk, Inventory.get?_set_self hr]
      exact ⟨rfl, hidem r _ (Prod.ext hok rfl)⟩
  · exact hkept j e (Cache.item?_of_put hj he)

/-- Another primary device leaves the cache faithful, since the key of the old one is dropped. -/
theorem Faithful.select (h : Faithful f inv c) (hi : Cache.Key.device i ≠ .primary)
    (hlt : i.toNat < inv.devices.length) :
    Faithful f (inv.setPrimary i).2 (c.invalidate .primary) := by
  have hinv : (inv.setPrimary i).2 =
      { inv with primaryIndex := i, generation := inv.generation + 1 } := by
    simp [Inventory.setPrimary, hlt]
  rw [hinv]
  refine ⟨h.first, hi, fun j e he => ?_⟩
  rw [Cache.item?_invalidate] at he
  split at he
  · cases he
  · rename_i hj
    have hnot : j.isPrimary = false := by simpa [Cache.Key.isPrimary] using hj
    have hold := h.holds j e he
    simpa [indexOf, hnot, Inventory.get?] using hold

end Faithful

/-! ### Calls with a cache -/

section Calls

variable {β σ : Type} [BackendCalls β (Job (Shared β σ))] [Surroundings σ]

variable (σ) in
/-- Detection finds `found` every time and a refresh comes out as `f` says, both without touching the
monitor; what a refresh gave, another one gives again. -/
structure Steady (reg : Registry β) (found : List Reading) (f : Reading → Status × Reading) :
    Prop where
  detects : ∀ w : Shared β σ,
    Ends reg.detectAll w fun rs v => rs = found ∧ ∃ o, v = { w with outside := o }
  refreshes : ∀ r (w : Shared β σ),
    Ends (reg.refresh r) w fun x v => x = f r ∧ ∃ o, v = { w with outside := o }
  idempotent : ∀ r r', f r = (.ok, r') → f r' = (.ok, r')

structure At (reg : Registry β) (f : Reading → Status × Reading) (inv : Inventory)
    (w : Shared β σ) : Prop where
  registry : w.monitor.registry = reg
  inventory : w.monitor.inventory = inv
  free : w.detecting = false
  faithful : Faithful f inv w.monitor.cache

variable {reg : Registry β} {found : List Reading} {f : Reading → Status × Reading}
  {inv : Inventory} {w : Shared β σ} {k : Cache.Key} {i : UInt64} {r : Reading}

theorem publish_of_slot? {s : Monitor β} {slot : Slot} (h : s.inventory.slot? i = some slot)
    (fresh : Reading) (now : Instant) : publish ⟨k, slot⟩ fresh now s =
      (.fresh fresh, { s with
        inventory := s.inventory.set i fresh, cache := s.cache.put now k fresh }) := by
  rw [publish, Inventory.updateSlot_of_slot? h, Cache.store]

variable (steady : Steady σ reg found f)

include steady

/-- Refreshing the slots changes the inventory only. -/
theorem ends_refreshSlots (first : Status) (n count : Nat)
    (hreg : w.monitor.registry = reg) (hinv : w.monitor.inventory = inv)
    (hfree : w.detecting = false) : Ends (refreshSlots first n count) w fun st v =>
      readAllAgain f first n count inv = (st, v.monitor.inventory) ∧
        v.monitor.registry = reg ∧ v.detecting = false := by
  induction count generalizing first n inv w with
  | zero => exact ends_pure ⟨by rw [readAllAgain, hinv], hreg, hfree⟩
  | succ count ih =>
    refine ends_bind (Shared.ends_get ?_)
    dsimp only
    rw [hinv, readAllAgain]
    -- both go on from the same slot, or stop at the same end
    cases hr : inv.get? n.toUInt64 with
    | none => exact ends_pure ⟨by rw [hinv], hreg, hfree⟩
    | some r =>
      refine ends_bind (ends_bind (Shared.ends_get ?_))
      rw [hreg]
      refine (steady.refreshes _ _).mono ?_
      intro x v hv
      obtain ⟨rfl, o, rfl⟩ := hv
      dsimp only
      cases hok : (f r).1.isOk with
      | true =>
        rw [if_pos rfl, if_pos rfl]
        refine ends_bind (Shared.ends_modify (ih first (n + 1) hreg ?_ hfree))
        simp [storeSame, hinv]
      | false =>
        rw [if_neg Bool.false_ne_true, if_neg Bool.false_ne_true]
        exact ends_bind (Shared.ends_report fun _ => ih _ (n + 1) hreg hinv hfree)

variable (h : At reg f inv w)

include h

theorem ends_detected : Ends ensureDetected w fun _ v => At reg f (detected found inv) v := by
  refine ends_ensureDetected h.free (fun hi => ?_) fun hi => ?_
  · rw [h.inventory] at hi
    simpa [detected, hi] using h
  · rw [h.inventory] at hi
    rw [h.registry]
    refine (steady.detects _).mono ?_
    intro rs v hv
    obtain ⟨rfl, o, rfl⟩ := hv
    have hd : detected rs inv = inv.replace rs := by simp [detected, hi]
    rw [hd]
    exact ⟨h.registry, by simp [install, h.inventory], rfl,
      faithful_replace rs fun _ => h.faithful.item?_of_uninitialized hi⟩

/-- The second half of a query does what reading the slot again does without a cache. -/
theorem ends_close_slot (hk : indexOf inv k = i) :
    Ends (close (.ofSlot k (inv.slot? i))) w fun a v =>
      .ofAnswer a = (readAgain f i inv).1 ∧ At reg f (readAgain f i inv).2 v := by
  cases hs : inv.slot? i with
  | none =>
    have hr : inv.get? i = none := Option.map_eq_none_iff.1 hs
    exact ends_pure (by simpa [readAgain, hr, Reply.ofAnswer, Answer.notFound] using h)
  | some slot =>
    obtain ⟨hr, hi, _⟩ := Inventory.slot?_eq_some.1 hs
    refine ends_close_pending ?_
    rw [h.registry]
    refine (steady.refreshes _ _).mono ?_
    intro x v hv
    obtain ⟨rfl, o, rfl⟩ := hv
    refine ⟨fun hok t o' => ?_, fun hbad o' => ?_⟩
    -- nothing has run in between, so the slot is still the one that was read
    · rw [publish_of_slot? (by rwa [h.inventory])]
      have hagain : readAgain f i inv =
          (.snapshot (some (f slot.reading).2) .ok, inv.set i (f slot.reading).2) := by
        simp [readAgain, hr, hok]
      rw [hagain]
      exact ⟨rfl, h.registry, by simp [h.inventory], h.free,
        h.faithful.publish steady.idempotent hk hr (by simpa [Status.isOk] using hok)⟩
    · have hagain : readAgain f i inv = (.snapshot (some slot.reading) (f slot.reading).1, inv) := by
        simp [readAgain, hr, hbad]
      rw [hagain]
      exact ⟨rfl, h.registry, h.inventory, h.free, h.faithful⟩

/-- A hit gives what reading the slot again would give, and leaves it to say the same next time. -/
theorem ends_close_cached (hk : indexOf inv (.device i) = i) (now : Instant) (o : σ) :
    Ends (close (openCached i now w.monitor).1)
      { w with monitor := (openCached i now w.monitor).2, outside := o } fun a v =>
        .ofAnswer a = (readAgain f i inv).1 ∧ At reg f (readAgain f i inv).2 v := by
  have hf := h.faithful.get now (.device i)
  have hhit (r) : (w.monitor.cache.get now (.device i)).1 = some r → _ := h.faithful.hit
  unfold openCached
  cases hget : w.monitor.cache.get now (.device i) with
  | mk answer c =>
    rw [hget] at hf hhit
    cases answer with
    | some r =>
      obtain ⟨hr, hfix⟩ := hhit r rfl
      rw [hk] at hr
      rw [readAgain_of_fixed hr hfix]
      exact ends_pure ⟨rfl, h.registry, h.inventory, h.free, hf⟩
    | none =>
      rw [h.inventory]
      exact ends_close_slot steady ⟨h.registry, rfl, h.free, hf⟩ hk

theorem ends_close_primary (now : Instant) (o : σ) (hi : inv.initialized = true) :
    Ends (close (openPrimary now w.monitor).1)
      { w with monitor := (openPrimary now w.monitor).2, outside := o } fun a v =>
        .ofAnswer a = (Call.cachedPrimary.plain found f inv).1 ∧
          At reg f (Call.cachedPrimary.plain found f inv).2 v := by
  have hf := h.faithful.get now .primary
  have hhit (r) : (w.monitor.cache.get now .primary).1 = some r → _ := h.faithful.hit
  simp only [Call.plain, detected, hi, if_true]
  unfold openPrimary
  -- a hit is what the slot holds, and by `Faithful` reading that again changes nothing
  cases hget : w.monitor.cache.get now .primary with
  | mk answer c =>
    rw [hget] at hf hhit
    cases answer with
    | some r =>
      obtain ⟨hr, hfix⟩ := hhit r rfl
      rw [indexOf_primary] at hr
      rw [if_neg (by simp [Inventory.primarySlot?, Inventory.slot?, hr]), readAgain_of_fixed hr hfix]
      exact ends_pure ⟨rfl, h.registry, h.inventory, h.free, hf⟩
    | none =>
      rw [h.inventory]
      cases hs : inv.primarySlot? with
      | none => exact ends_pure ⟨rfl, h.registry, rfl, h.free, hf⟩
      | some slot =>
        -- a miss goes on like a query for the slot of the primary device
        have hclose := ends_close_slot (k := .primary) steady
          (w := { w with monitor := { w.monitor with inventory := inv, cache := c }, outside := o })
          ⟨h.registry, rfl, h.free, hf⟩ indexOf_primary
        rw [← Inventory.primarySlot?, hs] at hclose
        simpa [Opening.ofSlot] using hclose

theorem ends_close_refresh (hk : Cache.Key.device i ≠ .primary) :
    Ends (close (openRefresh i w.monitor).1) { w with monitor := (openRefresh i w.monitor).2 }
      fun a v => .ofAnswer a = (readAgain f i inv).1 ∧ At reg f (readAgain f i inv).2 v := by
  have hf := h.faithful.invalidate (.device i)
  have hinv := h.inventory
  unfold openRefresh
  dsimp only [invalidate]
  -- dropping entries, one or two of them, leaves the others right
  split
  · rw [hinv]
    exact ends_close_slot steady ⟨h.registry, rfl, h.free, hf.invalidate .primary⟩ (indexOf_device hk)
  · rw [hinv]
    exact ends_close_slot steady ⟨h.registry, rfl, h.free, hf⟩ (indexOf_device hk)

theorem ends_close_refreshPrimary :
    Ends (close (openRefreshPrimary w.monitor).1)
      { w with monitor := (openRefreshPrimary w.monitor).2 } fun a v =>
        .ofAnswer a = (readAgain f inv.primaryIndex inv).1 ∧
          At reg f (readAgain f inv.primaryIndex inv).2 v := by
  have hk : indexOf inv (.device inv.primaryIndex) = inv.primaryIndex :=
    indexOf_device h.faithful.primary
  unfold openRefreshPrimary
  rw [h.inventory]
  cases hs : inv.primarySlot? with
  | none =>
    have hclose := ends_close_slot steady h hk
    rwa [← Inventory.primarySlot?, hs] at hclose
  | some slot =>
    have hi : slot.index = inv.primaryIndex := (Inventory.slot?_eq_some.1 hs).2.1
    have hclose := ends_close_slot steady
      (w := { w with monitor := (w.monitor.invalidate (.device slot.index)).invalidate .primary })
      ⟨h.registry, h.inventory, h.free, (h.faithful.invalidate _).invalidate _⟩ hk
    rw [← Inventory.primarySlot?, hs, ← hi] at hclose
    rw [← hi]
    exact hclose

theorem ends_perform_refreshAll : Ends Call.refreshAll.perform w fun reply v =>
    reply = (Call.refreshAll.plain found f inv).1 ∧
      At reg f (Call.refreshAll.plain found f inv).2 v := by
  refine ends_map (ends_refreshAll ((ends_detected steady h).mono fun _ v hv => ?_))
  rw [hv.inventory]
  refine (ends_refreshSlots steady .ok 0 _ hv.registry hv.inventory hv.free).mono ?_
  intro st u hu
  obtain ⟨hagain, hreg, hfree⟩ := hu
  have hframe := readAllAgain_frame f (detected found inv) .ok 0 (detected found inv).size
  simp only [Call.plain, hagain] at hframe ⊢
  -- the slots were written under the cache, which is emptied only now
  refine ⟨trivial, hreg, rfl, hfree, faithful_of_empty ?_ ?_ fun _ => Cache.item?_clear⟩
  · exact hframe.1.trans (detected_initialized found inv)
  · exact hframe.2 ▸ hv.faithful.primary

theorem ends_perform_setPrimary (hc : Cache.Key.device i ≠ .primary) :
    Ends (Call.setPrimary i).perform w fun reply v =>
      reply = ((Call.setPrimary i).plain found f inv).1 ∧
        At reg f ((Call.setPrimary i).plain found f inv).2 v := by
  refine ends_map (ends_setPrimary ((ends_detected steady h).mono fun _ v hv o => ?_))
  simp only [Call.plain, selectPrimary]
  rw [hv.inventory]
  by_cases hlt : i.toNat < (detected found inv).devices.length
  · have hsel := hv.faithful.select hc hlt
    simp only [Inventory.setPrimary, if_pos hlt] at hsel ⊢
    exact ⟨trivial, hv.registry, rfl, hv.free, hsel⟩
  · simp only [Inventory.setPrimary, if_neg hlt]
    exact ⟨trivial, hv.registry, hv.inventory, hv.free, hv.faithful⟩

theorem ends_perform_detectAll : Ends Call.detectAll.perform w fun reply v =>
    reply = (Call.detectAll.plain found f inv).1 ∧
      At reg f (Call.detectAll.plain found f inv).2 v := by
  refine ends_map (ends_detectAll h.free ?_)
  rw [h.registry]
  refine (steady.detects _).mono ?_
  intro rs v hv
  obtain ⟨rfl, o, rfl⟩ := hv
  refine ⟨rfl, h.registry, ?_, rfl, faithful_replace rs fun _ => Cache.item?_clear⟩
  simp [reinstall, h.inventory, Call.plain]

/-- One call: it answers as it would without a cache, and the collection becomes what it would
become. -/
theorem ends_perform {c : Call} (hc : c.Addressable) : Ends c.perform w fun reply v =>
    reply = (c.plain found f inv).1 ∧ At reg f (c.plain found f inv).2 v := by
  -- all calls but `detectAll` begin by making sure of a detection
  have hready := ends_detected steady h
  cases c with
  | cached i =>
    exact ends_map (ends_cached (hready.mono fun _ _ hv t o =>
      ends_close_cached steady hv (indexOf_device hc) t o))
  | cachedPrimary =>
    refine ends_map (ends_cachedPrimary (hready.mono fun _ _ hv t o => ?_))
    have hdone := detected_initialized found inv
    have hclose := ends_close_primary steady hv t o hdone
    simpa only [Call.plain, detected_of_initialized hdone] using hclose
  | refresh i =>
    exact ends_map (ends_refresh (hready.mono fun _ _ hv => ends_close_refresh steady hv hc))
  | refreshPrimary =>
    exact ends_map (ends_refreshPrimary (hready.mono fun _ _ hv =>
      ends_close_refreshPrimary steady hv))
  | refreshAll => exact ends_perform_refreshAll steady h
  | setPrimary i => exact ends_perform_setPrimary steady h hc
  | detectAll => exact ends_perform_detectAll steady h
  | device i =>
    exact ends_map (ends_device? (hready.mono fun _ _ hv => ⟨by rw [hv.inventory]; rfl, hv⟩))
  | devices =>
    exact ends_map (ends_devices (hready.mono fun _ _ hv => ⟨by rw [hv.inventory]; rfl, hv⟩))

/-- A sequence of calls replies as it would without a cache. -/
theorem ends_performAll {calls : List Call} (hcalls : ∀ c ∈ calls, c.Addressable) :
    Ends (performAll calls) w fun replies v =>
      replies = (plainAll found f inv calls).1 ∧ At reg f (plainAll found f inv calls).2 v := by
  induction calls generalizing inv w with
  | nil => exact ends_pure ⟨rfl, h⟩
  | cons c cs ih =>
    have hc := hcalls c (by simp)
    have hcs : ∀ c ∈ cs, c.Addressable := fun c' hc' => hcalls c' (by simp [hc'])
    refine ends_bind ((ends_perform steady h hc).mono ?_)
    intro reply v hfirst
    obtain ⟨hreply, hv⟩ := hfirst
    refine ends_bind ((ih hv hcs).mono ?_)
    intro replies u hrest
    obtain ⟨hreplies, hu⟩ := hrest
    exact ends_pure ⟨by rw [hreply, hreplies]; rfl, hu⟩

end Calls

/-! ### Devices that do not change -/

structure StillBackend where
  devices : List Reading

instance {σ : Type} : BackendCalls StillBackend (StateM σ) where
  name _ := pure []
  detect b listed := pure ((Detection.ofReadings b.devices).onto listed)
  refresh b r := pure (.among (·.same r) b.devices r)

instance : Surroundings Instant where
  now t := (t, t + nanosPerMilli)
  report _ t := t

def stillRegistry (v : Vendor) (devices : List Reading) : Registry StillBackend :=
  { entries := [⟨v, ⟨devices⟩⟩] }

def stillRefresh (v : Vendor) (devices : List Reading) (r : Reading) : Status × Reading :=
  if v.sameFamily r.vendor then
    match devices.find? (·.same r) with
    | some d => (.ok, d)
    | none => (.detectionFailed, r)
  else (.noBackend, r)

/-- The only backend of the family looks the device up in its list. -/
theorem ends_refreshAmong_still {σ : Type} [Surroundings σ] (v : Vendor) (devices : List Reading)
    (r : Reading) (w : Shared StillBackend σ) :
    Ends (Registry.refreshAmong r [(⟨v, ⟨devices⟩⟩ : Registration StillBackend)]) w
      fun x u => x = devices.find? (·.same r) ∧ ∃ o, u = { w with outside := o } := by
  have hask : Ends (BackendCalls.refresh (StillBackend.mk devices) r) w fun a u =>
      a = .among (·.same r) devices r ∧ u = w := ⟨_, _, rfl, rfl, rfl⟩
  refine ends_bind (hask.mono ?_)
  intro a u hu
  obtain ⟨rfl, rfl⟩ := hu
  cases hd : devices.find? (·.same r) with
  | some d =>
    simp only [Attempt.among, hd]
    exact ends_pure ⟨rfl, _, rfl⟩
  | none =>
    simp only [Attempt.among, hd]
    exact ⟨_, _, rfl, rfl, _, rfl⟩

/-- What was found is of the device asked for, so asking for it finds it again. -/
theorem stillRefresh_idempotent {v : Vendor} {devices : List Reading} {r r' : Reading}
    (h : stillRefresh v devices r = (.ok, r')) : stillRefresh v devices r' = (.ok, r') := by
  unfold stillRefresh at h ⊢
  by_cases hv : v.sameFamily r.vendor
  · rw [if_pos hv] at h
    cases hd : devices.find? (·.same r) with
    | none => simp [hd] at h
    | some d =>
      simp only [hd, Prod.mk.injEq, true_and] at h
      subst h
      have hsame : d.same r = true := by simpa using List.find?_some hd
      have hfam : d.vendor.family = r.vendor.family := by
        simp only [Reading.same, Vendor.same, Bool.and_eq_true, beq_iff_eq] at hsame
        exact hsame.1.1
      have hv' : v.sameFamily d.vendor := by rwa [Vendor.sameFamily, hfam]
      have hd' : devices.find? (·.same d) = some d := by
        simp only [Reading.same_congr hsame, hd]
      simp [hv', hd']
  · simp [hv] at h

/-- A backend whose devices stay as they are is steady. -/
theorem steady_still {σ : Type} [Surroundings σ] (v : Vendor) (devices : List Reading) :
    Steady σ (stillRegistry v devices) devices (stillRefresh v devices) where
  detects w := by
    cases devices with
    | nil => exact ⟨_, _, rfl, rfl, _, rfl⟩
    | cons d ds => exact ⟨_, _, rfl, List.append_nil _, _, rfl⟩
  refreshes r w := by
    unfold Registry.refresh stillRefresh
    by_cases hv : v.sameFamily r.vendor
    · have hfam : (stillRegistry v devices).ofFamily r.vendor = [⟨v, ⟨devices⟩⟩] := by
        simp [Registry.ofFamily, stillRegistry, hv]
      rw [hfam, if_pos hv]
      refine ends_bind ((ends_refreshAmong_still v devices r w).mono ?_)
      intro x u hu
      obtain ⟨rfl, o, rfl⟩ := hu
      cases hd : devices.find? (·.same r) with
      | some d => exact ends_pure ⟨rfl, _, rfl⟩
      | none => exact ends_bind (Shared.ends_report fun _ => ends_pure ⟨rfl, _, rfl⟩)
    · have hfam : (stillRegistry v devices).ofFamily r.vendor = [] := by
        simp [Registry.ofFamily, stillRegistry, hv]
      rw [hfam, if_neg hv]
      exact ends_pure ⟨rfl, _, rfl⟩
  idempotent _ _ := stillRefresh_idempotent

/-! ### Two monitors -/

variable {β σ σ' : Type}

def session [BackendCalls β (Job (Shared β σ))] [Surroundings σ] (reg : Registry β)
    (policy : Cache.Policy) (o : σ) (calls : List Call) : Option (List Reply × Shared β σ) :=
  (performAll calls : Job (Shared β σ) (List Reply)).run
    { monitor := new reg policy, outside := o }

variable {reg : Registry β} {found : List Reading} {f : Reading → Status × Reading}

theorem at_new (reg : Registry β) (f : Reading → Status × Reading) (policy : Cache.Policy) (o : σ) :
    At reg f {} { monitor := new reg policy, outside := o } := by
  refine ⟨rfl, rfl, rfl, fun _ => rfl, (by decide : Cache.Key.device 0 ≠ .primary), fun k e he => ?_⟩
  simp [new] at he

/-- **The cache does not show.** Two new monitors over one registry, with any caches and any clocks,
give the same replies to every sequence of calls and end with the same collection. -/
theorem replies_independent_of_cache [BackendCalls β (Job (Shared β σ))] [Surroundings σ]
    [BackendCalls β (Job (Shared β σ'))] [Surroundings σ'] (steady : Steady σ reg found f)
    (steady' : Steady σ' reg found f) (policy policy' : Cache.Policy) (o : σ) (o' : σ')
    (calls : List Call) (hcalls : ∀ c ∈ calls, c.Addressable) :
    ∃ replies w w', session reg policy o calls = some (replies, w) ∧
      session reg policy' o' calls = some (replies, w') ∧
      w.monitor.inventory = w'.monitor.inventory := by
  obtain ⟨replies, w, hrun, hreplies, hw⟩ :=
    ends_performAll steady (at_new reg f policy o) hcalls
  obtain ⟨replies', w', hrun', hreplies', hw'⟩ :=
    ends_performAll steady' (at_new reg f policy' o') hcalls
  have hsame : replies' = replies := hreplies'.trans hreplies.symm
  exact ⟨replies, w, w', hrun, hsame ▸ hrun', hw.inventory.trans hw'.inventory.symm⟩

def card (name : String) : Reading := { vendor := .amd, name := some (utf8 name) }

/-- A cache that keeps nothing and one that keeps a single snapshot reply the same. -/
theorem replies_independent_of_cache_of_still :
    ∃ replies w w',
      session (stillRegistry .amd [card "a", card "b"]) { ttl := 0 } (0 : Instant)
        [.cached 0, .cachedPrimary, .setPrimary 1, .cachedPrimary, .refresh 0, .devices] =
          some (replies, w) ∧
      session (stillRegistry .amd [card "a", card "b"]) { maxEntries := some 1 } (7 : Instant)
        [.cached 0, .cachedPrimary, .setPrimary 1, .cachedPrimary, .refresh 0, .devices] =
          some (replies, w') ∧
      w.monitor.inventory = w'.monitor.inventory :=
  replies_independent_of_cache (steady_still _ _) (steady_still _ _) _ _ _ _ _
    (by simp [Call.Addressable, Cache.Key.device, Cache.Key.primary])

end GpuTelemetry.Monitor
