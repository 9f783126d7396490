import GpuTelemetry.Proofs.Monitor.Visit
import GpuTelemetry.Proofs.Reading.Identity
/-!
Refreshing all devices at once and refreshing them one after the other. Both ask the registry once for
every device and come to the same statuses. They store a new reading under different conditions: a
refresh of one device looks whether its slot has been replaced meanwhile, a refresh of all looks whether
the reading is still of the device in the slot. So the collections differ where, and only where, a
refresh has changed the identity of a device.
-/

namespace GpuTelemetry

def Inventory.mapDevices (inv : Inventory) (g : Reading → Reading) : Inventory :=
  { inv with devices := inv.devices.map g }

namespace Monitor

open Job (Ends ends_pure ends_bind ends_map)

def firstFailure (statuses : List Status) : Status := (statuses.find? fun s => !s.isOk).getD .ok

section FirstFailure

variable {s t : Status} {ss : List Status}

theorem firstFailure_cons_ok (h : s.isOk = true) : firstFailure (s :: ss) = firstFailure ss := by
  rw [firstFailure, List.find?_cons_of_neg (by simp [h]), firstFailure]

theorem firstFailure_cons_bad (h : s.isOk = false) : firstFailure (s :: ss) = s := by
  rw [firstFailure, List.find?_cons_of_pos (by simp [h]), Option.getD_some]

/-- A success does not count, wherever it stands. -/
theorem firstFailure_skip (h : t.isOk = true) :
    firstFailure (s :: t :: ss) = firstFailure (s :: ss) := by
  cases hs : s.isOk with
  | true => rw [firstFailure_cons_ok hs, firstFailure_cons_ok hs, firstFailure_cons_ok h]
  | false => rw [firstFailure_cons_bad hs, firstFailure_cons_bad hs]

theorem firstFailure_merge :
    firstFailure (s :: t :: ss) = firstFailure ((if s.isOk then t else s) :: ss) := by
  cases hs : s.isOk with
  | true => rw [firstFailure_cons_ok hs, if_pos rfl]
  | false => rw [firstFailure_cons_bad hs, if_neg Bool.false_ne_true, firstFailure_cons_bad hs]

theorem firstFailure_eq_ok : firstFailure ss = .ok ↔ ∀ s ∈ ss, s = .ok := by
  induction ss with
  | nil => simp [firstFailure]
  | cons s ss ih =>
    cases hs : s.isOk with
    | true =>
      have hok : s = .ok := by simpa [Status.isOk] using hs
      rw [firstFailure_cons_ok hs, ih]
      simp [hok]
    | false =>
      have hbad : s ≠ .ok := by simpa [Status.isOk] using hs
      rw [firstFailure_cons_bad hs]
      simp [hbad]

end FirstFailure

/-! ### The two ways of refreshing -/

structure Renewal where
  asked : Reading
  status : Status
  fresh : Reading

section Programs

variable {β σ : Type} [BackendCalls β (Job (Shared β σ))] [Surroundings σ]

def renewals (index : ℕ) : ℕ → Job (Shared β σ) (List Renewal)
  | 0 => pure []
  | count + 1 => do
    let s ← get
    match s.inventory.get? index.toUInt64 with
    | none => pure []
    | some r =>
      let (status, fresh) ← refreshReading r
      if status.isOk then
        modify (storeSame index.toUInt64 fresh)
      else
        Host.report (refreshFailedNotice index status)
      let rest ← renewals (index + 1) count
      pure (⟨r, status, fresh⟩ :: rest)

def sweep : Job (Shared β σ) (List Renewal) := do
  ensureDetected
  let s ← get
  let rs ← renewals 0 s.inventory.size
  modify clearCache
  pure rs

def refreshFrom (index : ℕ) : ℕ → Job (Shared β σ) (List Answer)
  | 0 => pure []
  | count + 1 => do
    let a ← refresh index.toUInt64
    let rest ← refreshFrom (index + 1) count
    pure (a :: rest)

def refreshInTurn : Job (Shared β σ) (List Answer) := do
  let n ← count
  refreshFrom 0 n

/-- The telling takes no step of its own. -/
theorem firstFailure_renewals (first : Status) (index count : ℕ) :
    (fun rs => firstFailure (first :: rs.map Renewal.status)) <$> renewals index count =
      (refreshSlots first index count : Job (Shared β σ) Status) := by
  have hnone (first : Status) : firstFailure [first] = first := by
    cases first <;> rfl
  induction count generalizing first index with
  | zero => rw [renewals, refreshSlots, map_pure, List.map_nil, hnone]
  | succ count ih =>
    -- what is told of a slot counts in the end as the loop counts it on the way
    have hnext (r fresh : Reading) (status next : Status)
        (h : ∀ ss, firstFailure (first :: status :: ss) = firstFailure (next :: ss)) :
        (renewals (index + 1) count >>= fun rs =>
          pure (firstFailure (first :: ((⟨r, status, fresh⟩ : Renewal) :: rs).map Renewal.status))) =
        (refreshSlots next (index + 1) count : Job (Shared β σ) Status) := by
      rw [← ih next (index + 1), ← bind_pure_comp]
      exact congrArg _ (funext fun rs => congrArg pure (h (rs.map Renewal.status)))
    rw [renewals, refreshSlots, ← bind_pure_comp, bind_assoc]
    refine congrArg _ (funext fun s => ?_)
    cases s.inventory.get? index.toUInt64 with
    | none =>
      dsimp only
      rw [pure_bind, List.map_nil, hnone]
    | some r =>
      dsimp only
      rw [bind_assoc]
      refine congrArg _ (funext fun x => ?_)
      obtain ⟨status, fresh⟩ := x
      dsimp only
      cases hok : status.isOk with
      | true =>
        simp only [if_true, bind_assoc, pure_bind]
        exact congrArg _ (funext fun _ => hnext r fresh status first fun _ => firstFailure_skip hok)
      | false =>
        simp only [Bool.false_eq_true, if_false, bind_assoc, pure_bind]
        exact congrArg _ (funext fun _ => hnext r fresh status _ fun _ => firstFailure_merge)

/-- Telling what the registry made of each device takes nothing away: the first failure is the status of the
refresh. -/
theorem firstFailure_sweep :
    (fun rs => firstFailure (rs.map Renewal.status)) <$> (sweep : Job (Shared β σ) (List Renewal)) =
      refreshAll := by
  have hslots (count : ℕ) : (refreshSlots .ok 0 count : Job (Shared β σ) Status) =
      (fun rs => firstFailure (rs.map Renewal.status)) <$> renewals 0 count := by
    rw [← firstFailure_renewals]
    exact congrArg (· <$> _) (funext fun rs => firstFailure_cons_ok rfl)
  simp only [sweep, refreshAll, hslots, ← bind_pure_comp, bind_assoc, pure_bind]

end Programs

/-! ### What they come to -/

section Outcome

variable (f : Reading → Status × Reading)

def Renewal.of (d : Reading) : Renewal := ⟨d, (f d).1, (f d).2⟩

def renewed (d : Reading) : Reading := if (f d).1.isOk then (f d).2 else d

/-- The device read again, or as it was; a reading of another device is not taken. -/
def kept (d : Reading) : Reading := if d.same (renewed f d) then renewed f d else d

def renewedAnswer (d : Reading) : Answer := { snapshot := some (renewed f d), status := (f d).1 }

variable {f} {d : Reading} {inv : Inventory} {before rest : List Reading}

theorem renewed_of_ok (h : (f d).1.isOk = true) : renewed f d = (f d).2 := by
  rw [renewed, if_pos h]

theorem renewed_of_bad (h : (f d).1.isOk = false) : renewed f d = d := by
  rw [renewed, h, if_neg Bool.false_ne_true]

theorem kept_of_bad (h : (f d).1.isOk = false) : kept f d = d := by
  rw [kept, renewed_of_bad h, ite_self]

/-- A refresh that leaves the identity alone is the only one that is stored either way. -/
theorem kept_eq_renewed : kept f d = renewed f d ↔ d.same (renewed f d) = true := by
  constructor
  · intro heq
    by_contra hother
    -- then the device is as it was, and it is of its own identity
    rw [kept, if_neg hother] at heq
    exact hother (heq ▸ d.same_self)
  · intro hsame
    rw [kept, if_pos hsame]

theorem toNat_of_lt {n : ℕ} (h : n < UInt64.size) : n.toUInt64.toNat = n := by
  simp [Nat.toUInt64, Nat.mod_eq_of_lt h]

theorem get?_between (hdev : inv.devices = before ++ d :: rest)
    (hsize : inv.size < UInt64.size) : inv.get? before.length.toUInt64 = some d := by
  have hlt : before.length < UInt64.size := by
    rw [Inventory.size, hdev, List.length_append] at hsize
    omega
  simp [Inventory.get?, toNat_of_lt hlt, hdev]

theorem set_between (hdev : inv.devices = before ++ d :: rest) (hsize : inv.size < UInt64.size)
    (r : Reading) : inv.set before.length.toUInt64 r = { inv with devices := before ++ r :: rest } := by
  have hlt : before.length < UInt64.size := by
    rw [Inventory.size, hdev, List.length_append] at hsize
    omega
  simp [Inventory.set, toNat_of_lt hlt, hdev]

/-- A new reading goes into its slot if it is of the device there. -/
theorem updateSame_between (hdev : inv.devices = before ++ d :: rest)
    (hsize : inv.size < UInt64.size) (hok : (f d).1.isOk = true) :
    (inv.updateSame before.length.toUInt64 (f d).2).2 =
      { inv with devices := before ++ kept f d :: rest } := by
  rw [Inventory.updateSame, get?_between hdev hsize, ← renewed_of_ok hok]
  dsimp only
  split
  · rename_i hsame
    rw [set_between hdev hsize, kept, if_pos hsame]
  · rename_i hother
    rw [kept, if_neg hother, ← hdev]

end Outcome

section Ends

open Shared (Outside ends_get ends_modify ends_modifyGet ends_report)

variable {β σ : Type} [BackendCalls β (Job (Shared β σ))] [Surroundings σ] {w : Shared β σ}
  {reg : Registry β} {f : Reading → Status × Reading} {rest : List Reading} {d : Reading}
  (hf : ∀ r, Outside (reg.refresh r : Job (Shared β σ) (Status × Reading)) (· = f r))

include hf

/-- From a slot on, every device is asked for once, and its slot holds what is kept of it. -/
theorem ends_renewals (before : List Reading) (hreg : w.monitor.registry = reg)
    (hdev : w.monitor.inventory.devices = before ++ rest)
    (hsize : w.monitor.inventory.size < UInt64.size) :
    Ends (renewals before.length rest.length) w fun rs v => rs = rest.map (Renewal.of f) ∧
      ∃ o, v = { w with
        monitor := { w.monitor with
          inventory := { w.monitor.inventory with devices := before ++ rest.map (kept f) } }
        outside := o } := by
  induction rest generalizing before w with
  | nil => exact ends_pure ⟨rfl, w.outside, by rw [List.map_nil, ← hdev]⟩
  | cons d rest ih =>
    refine ends_bind (ends_get ?_)
    rw [get?_between hdev hsize]
    refine ends_bind (ends_bind (ends_get ?_))
    rw [hreg]
    refine (hf d w).mono fun x v hv => ?_
    obtain ⟨rfl, o, rfl⟩ := hv
    dsimp only
    -- the slots that are left are refreshed from a state that differs in this slot alone
    have hrest (o : σ) (inv : Inventory)
        (hinv : inv = { w.monitor.inventory with devices := before ++ kept f d :: rest }) :
        Ends (renewals (before.length + 1) rest.length >>= fun rs =>
            pure (⟨d, (f d).1, (f d).2⟩ :: rs) : Job (Shared β σ) (List Renewal))
          { w with monitor := { w.monitor with inventory := inv }, outside := o } fun rs v =>
            rs = (d :: rest).map (Renewal.of f) ∧ ∃ o, v = { w with
              monitor := { w.monitor with inventory := { w.monitor.inventory with
                devices := before ++ (d :: rest).map (kept f) } }
              outside := o } := by
      have hlen : (before ++ kept f d :: rest).length < UInt64.size := by
        rw [Inventory.size, hdev] at hsize
        simpa using hsize
      have hstep := ih (before ++ [kept f d])
        (w := { w with monitor := { w.monitor with inventory := inv }, outside := o }) hreg
        (by simp [hinv]) (by simpa [hinv, Inventory.size] using hlen)
      rw [List.length_append, List.length_singleton] at hstep
      refine ends_bind (hstep.mono fun rs v hv => ends_pure ?_)
      obtain ⟨rfl, o', rfl⟩ := hv
      exact ⟨rfl, o', by simp [hinv]⟩
    cases hok : (f d).1.isOk with
    | true =>
      rw [if_pos rfl]
      exact ends_bind (ends_modify (hrest o _ (updateSame_between hdev hsize hok)))
    | false =>
      rw [if_neg Bool.false_ne_true]
      refine ends_bind (ends_report fun o' => hrest o' _ ?_)
      rw [kept_of_bad hok, ← hdev]

/-- A refresh of one device stores what is read, whatever its identity. -/
theorem ends_refresh_between {before : List Reading} (hreg : w.monitor.registry = reg)
    (hfree : w.detecting = false)
    (hi : w.monitor.inventory.initialized = true)
    (hdev : w.monitor.inventory.devices = before ++ d :: rest)
    (hsize : w.monitor.inventory.size < UInt64.size) :
    Ends (refresh before.length.toUInt64) w fun a v => a = renewedAnswer f d ∧
      v.monitor.registry = reg ∧ v.detecting = false ∧ v.monitor.inventory =
        { w.monitor.inventory with devices := before ++ renewed f d :: rest } := by
  obtain ⟨slot, hslot⟩ : ∃ slot, w.monitor.inventory.slot? before.length.toUInt64 = some slot := by
    rw [Inventory.slot?, get?_between hdev hsize]
    exact ⟨_, rfl⟩
  have hread : slot.reading = d := by
    have hget := (Inventory.slot?_eq_some.1 hslot).1
    rw [get?_between hdev hsize] at hget
    exact (Option.some.inj hget).symm
  refine ends_refresh ⟨(), w, run_ensureDetected hi, ?_⟩
  -- opening drops what was cached, and reads the slot
  have hclose (s : Monitor β) (hs : s.inventory = w.monitor.inventory) (hsreg : s.registry = reg) :
      Ends (close (.ofSlot (.device before.length.toUInt64)
          (w.monitor.inventory.slot? before.length.toUInt64))) { w with monitor := s }
        fun a v => a = renewedAnswer f d ∧ v.monitor.registry = reg ∧ v.detecting = false ∧
          v.monitor.inventory =
            { w.monitor.inventory with devices := before ++ renewed f d :: rest } := by
    rw [hslot]
    refine ends_close_pending ?_
    dsimp only
    rw [hsreg, hread]
    refine (hf d _).mono fun x v hv => ?_
    obtain ⟨rfl, o, rfl⟩ := hv
    refine ⟨fun hok t o' => ?_, fun hbad o' => ?_⟩
    · rw [publish_of_slot? (by rwa [hs]), hs, set_between hdev hsize, ← renewed_of_ok hok]
      have hstatus : (f d).1 = .ok := by simpa [Status.isOk] using hok
      exact ⟨by rw [renewedAnswer, hstatus]; rfl, hsreg, hfree, rfl⟩
    · refine ⟨?_, hsreg, hfree, ?_⟩
      · rw [Pending.failed, hread, renewedAnswer, renewed_of_bad hbad]
      · rw [renewed_of_bad hbad, ← hdev]
        exact hs
  rcases openRefresh_cases before.length.toUInt64 w.monitor with ho | ho
  · dsimp only
    rw [ho]
    exact hclose _ rfl hreg
  · dsimp only
    rw [ho]
    exact hclose _ rfl hreg

/-- From a slot on, one refresh after the other renews the devices that are left. -/
theorem ends_refreshFrom (before : List Reading) (hreg : w.monitor.registry = reg)
    (hfree : w.detecting = false) (hi : w.monitor.inventory.initialized = true)
    (hdev : w.monitor.inventory.devices = before ++ rest)
    (hsize : w.monitor.inventory.size < UInt64.size) :
    Ends (refreshFrom before.length rest.length) w fun as v => as = rest.map (renewedAnswer f) ∧
      v.monitor.inventory =
        { w.monitor.inventory with devices := before ++ rest.map (renewed f) } := by
  -- on the devices that are left; those before are renewed
  induction rest generalizing before w with
  | nil => exact ends_pure ⟨rfl, by rw [List.map_nil, ← hdev]⟩
  | cons d rest ih =>
    refine ends_bind ((ends_refresh_between hf hreg hfree hi hdev hsize).mono fun a v hv => ?_)
    obtain ⟨rfl, hreg', hfree', hinv⟩ := hv
    have hlen : v.monitor.inventory.size < UInt64.size := by
      rw [Inventory.size, hdev] at hsize
      simpa [hinv, Inventory.size] using hsize
    have hstep := ih (before ++ [renewed f d]) hreg' hfree' (by rw [hinv]; exact hi)
      (by simp [hinv]) hlen
    rw [List.length_append, List.length_singleton] at hstep
    refine ends_bind (hstep.mono fun as u hu => ends_pure ?_)
    obtain ⟨rfl, hu⟩ := hu
    exact ⟨rfl, by simp [hu, hinv]⟩

variable {w₁ : Shared β σ} (hready : (ensureDetected : Job (Shared β σ) Unit).run w = some ((), w₁))
  (hreg : w₁.monitor.registry = reg) (hsize : w₁.monitor.inventory.size < UInt64.size)

include hready hreg hsize

/-- A refresh of all renews the devices that keep their identity, and empties the cache. -/
theorem ends_sweep : Ends sweep w fun rs v =>
    rs = w₁.monitor.inventory.devices.map (Renewal.of f) ∧
      v.monitor.inventory = w₁.monitor.inventory.mapDevices (kept f) ∧ v.monitor.cache.size = 0 := by
  refine ends_bind ⟨(), w₁, hready, ends_bind (ends_get ?_)⟩
  refine ends_bind ((ends_renewals hf [] hreg rfl hsize).mono fun rs v hv => ?_)
  obtain ⟨rfl, o, rfl⟩ := hv
  exact ends_bind (ends_modify (ends_pure ⟨rfl, rfl, rfl⟩))

/-- Refreshed by itself, a device is renewed whatever its new identity. -/
theorem ends_refreshInTurn (hfree : w₁.detecting = false)
    (hi : w₁.monitor.inventory.initialized = true) : Ends refreshInTurn w fun as v =>
      as = w₁.monitor.inventory.devices.map (renewedAnswer f) ∧
      v.monitor.inventory = w₁.monitor.inventory.mapDevices (renewed f) := by
  refine ends_bind (ends_bind ⟨(), w₁, hready, ends_bind (ends_get (ends_pure ?_))⟩)
  exact ends_refreshFrom hf [] hreg hfree hi rfl hsize

end Ends

/-- Two renewals agree on a collection if they agree on its devices. -/
theorem mapDevices_eq {g h : Reading → Reading} {inv : Inventory} :
    inv.mapDevices g = inv.mapDevices h ↔ ∀ d ∈ inv.devices, g d = h d := by
  constructor
  · intro heq
    have hdev : inv.devices.map g = inv.devices.map h := congrArg Inventory.devices heq
    exact List.map_inj_left.1 hdev
  · intro hall
    rw [Inventory.mapDevices, List.map_inj_left.2 hall, Inventory.mapDevices]

/-- **Refreshing all devices is refreshing them one after the other, as long as they keep their
identity.** Over a registry that refreshes by a function of the reading, from any state in which no
detection is under way: all devices are asked for, also after a failure. The status is that of the first
device for which a refresh by itself fails, and a success if there is none. Devices that fail keep their
slots and the cache is left empty. The collection is the same as after refreshes one by one exactly when
no refresh hands back a reading of another device; such a reading a refresh of one device stores, and a
refresh of all drops. -/
theorem refreshAll_agrees_in_turn {β σ : Type} [BackendCalls β (StateM σ)] [Surroundings σ]
    {w : Shared β σ} {f : Reading → Status × Reading}
    (hf : ∀ r, Shared.Outside
      (w.monitor.registry.refresh r : Job (Shared β σ) (Status × Reading)) (· = f r))
    (hfree : w.detecting = false)
    (hsize : ∀ w₁, (ensureDetected : Job (Shared β σ) Unit).run w = some ((), w₁) →
      w₁.monitor.inventory.size < UInt64.size) :
    ∃ w₁ rs st w' as w'', (ensureDetected : Job (Shared β σ) Unit).run w = some ((), w₁) ∧
      (sweep : Job (Shared β σ) (List Renewal)).run w = some (rs, w') ∧
      (refreshAll : Job (Shared β σ) Status).run w = some (st, w') ∧
      (refreshInTurn : Job (Shared β σ) (List Answer)).run w = some (as, w'') ∧
      rs.map Renewal.asked = w₁.monitor.inventory.devices ∧
      (st = firstFailure (as.map Answer.status) ∧ (st = .ok ↔ ∀ a ∈ as, a.status = .ok)) ∧
      w'.monitor.inventory = w₁.monitor.inventory.mapDevices (kept f) ∧
      w''.monitor.inventory = w₁.monitor.inventory.mapDevices (renewed f) ∧
      (w'.monitor.inventory = w''.monitor.inventory ↔
        ∀ d ∈ w₁.monitor.inventory.devices, d.same (renewed f d) = true) ∧
      (∀ i d, w₁.monitor.inventory.get? i = some d → (f d).1 ≠ .ok →
        w'.monitor.inventory.get? i = some d) ∧
      w'.monitor.cache.size = 0 := by
  obtain ⟨u, w₁, hready, hfree₁, hi, hmonitor⟩ := ends_ready hfree
  have hreg : w₁.monitor.registry = w.monitor.registry := by
    rcases hmonitor with hsame | ⟨_, found, hinstall⟩
    · rw [hsame]
    · rw [hinstall]
      rfl
  have hlt := hsize w₁ hready
  obtain ⟨rs, w', hsweep, hrs, hkept, hempty⟩ := ends_sweep hf hready hreg hlt
  obtain ⟨as, w'', hturn, has, hrenewed⟩ := ends_refreshInTurn hf hready hreg hlt hfree₁ hi
  -- the sweep is the refresh of all, which tells the first failure only
  have hall : (refreshAll : Job (Shared β σ) Status).run w =
      some (firstFailure (rs.map Renewal.status), w') := by
    rw [← firstFailure_sweep]
    exact (Job.run_bind _ _ _).trans (by rw [hsweep]; rfl)
  -- either way each device is asked for as the detection left it
  have hstatus : rs.map Renewal.status = as.map Answer.status := by
    rw [hrs, has, List.map_map, List.map_map]
    rfl
  refine ⟨w₁, rs, _, w', as, w'', hready, hsweep, hall, hturn, ?_, ?_, hkept, hrenewed, ?_, ?_,
    hempty⟩
  · rw [hrs, List.map_map]
    exact List.map_id _
  · rw [hstatus, firstFailure_eq_ok]
    exact ⟨rfl, List.forall_mem_map⟩
  · rw [hkept, hrenewed, mapDevices_eq]
    exact forall₂_congr fun d _ => kept_eq_renewed
  · intro i d hd hbad
    have hsame : kept f d = d := kept_of_bad (by simpa [Status.isOk] using hbad)
    rw [Inventory.get?] at hd
    rw [hkept, Inventory.get?, Inventory.mapDevices, List.getElem?_map, hd, Option.map_some, hsame]

/-! ### Devices that change their identity -/

/-- A backend that refreshes by a rule. -/
structure RuledBackend where
  devices : List Reading
  rule : Reading → Status × Reading

instance {σ : Type} : BackendCalls RuledBackend (StateM σ) where
  name _ := pure []
  detect b listed := pure ((Detection.ofReadings b.devices).onto listed)
  refresh b r := pure ⟨(b.rule r).2, .returned (b.rule r).1⟩

def ruledRegistry (v : Vendor) (b : RuledBackend) : Registry RuledBackend := { entries := [⟨v, b⟩] }

def ruledRefresh (v : Vendor) (b : RuledBackend) (r : Reading) : Status × Reading :=
  if v.sameFamily r.vendor then
    if (b.rule r).1.isOk then (.ok, (b.rule r).2) else (.detectionFailed, r)
  else (.noBackend, r)

theorem yields_detectAll_ruled {σ : Type} [Surroundings σ] (v : Vendor) {b : RuledBackend}
    (hsome : b.devices ≠ []) : Shared.Yields b.devices
      ((ruledRegistry v b).detectAll : Job (Shared RuledBackend σ) (List Reading)) := by
  have hask : Shared.Yields (.ofReadings b.devices)
      (BackendCalls.detect b [] : Job (Shared RuledBackend σ) Detection) :=
    Shared.yields_onOutside fun _ => rfl
  have hentry : Shared.Yields b.devices
      (Registry.detectEntry ⟨v, b⟩ : Job (Shared RuledBackend σ) (List Reading)) := by
    refine Shared.yields_bind hask ?_
    -- a backend that finds something says so
    have hok : (Detection.ofReadings b.devices).outcome.status.isOk = true := by
      simp [Detection.ofReadings, hsome, Outcome.status, Status.isOk]
    rw [if_pos hok]
    exact Shared.yields_pure _
  have hnone : Shared.Yields []
      (Registry.detectEntries ([] : List (Registration RuledBackend)) :
        Job (Shared RuledBackend σ) (List Reading)) := Shared.yields_pure _
  refine Shared.yields_bind hentry (Shared.yields_bind hnone ?_)
  rw [List.append_nil]
  exact Shared.yields_pure _

theorem yields_refresh_ruled {σ : Type} [Surroundings σ] (v : Vendor) (b : RuledBackend)
    (r : Reading) : Shared.Yields (ruledRefresh v b r)
      ((ruledRegistry v b).refresh r : Job (Shared RuledBackend σ) (Status × Reading)) := by
  unfold Registry.refresh ruledRefresh
  by_cases hv : v.sameFamily r.vendor
  · have hfam : (ruledRegistry v b).ofFamily r.vendor = [⟨v, b⟩] := by
      simp [Registry.ofFamily, ruledRegistry, hv]
    rw [hfam, if_pos hv]
    have hask : Shared.Yields ⟨(b.rule r).2, .returned (b.rule r).1⟩
        (BackendCalls.refresh b r : Job (Shared RuledBackend σ) Attempt) :=
      Shared.yields_onOutside fun _ => rfl
    -- the loop ends with this backend if it succeeds, and else has no other to ask
    by_cases hok : (Outcome.returned (b.rule r).1).status.isOk = true
    · have hcall : Shared.Yields (some (b.rule r).2)
          (Registry.refreshAmong r [(⟨v, b⟩ : Registration RuledBackend)] :
            Job (Shared RuledBackend σ) (Option Reading)) := by
        refine Shared.yields_bind hask ?_
        rw [if_pos hok]
        exact Shared.yields_pure _
      have hrule : (b.rule r).1.isOk = true := hok
      rw [if_pos hrule]
      exact Shared.yields_bind hcall (Shared.yields_pure _)
    · have hcall : Shared.Yields none
          (Registry.refreshAmong r [(⟨v, b⟩ : Registration RuledBackend)] :
            Job (Shared RuledBackend σ) (Option Reading)) := by
        refine Shared.yields_bind hask ?_
        rw [if_neg hok]
        exact fun w => ⟨rfl, ⟨_, rfl⟩, fun w => ⟨rfl, ⟨_, rfl⟩, rfl⟩⟩
      have hrule : ¬ (b.rule r).1.isOk = true := hok
      rw [if_neg hrule]
      exact Shared.yields_bind hcall fun w => ⟨rfl, ⟨_, rfl⟩, rfl⟩
  · have hfam : (ruledRegistry v b).ofFamily r.vendor = [] := by
      simp [Registry.ofFamily, ruledRegistry, hv]
    rw [hfam, if_neg hv]
    exact Shared.yields_pure _

def exchanging : RuledBackend where
  devices := [card "a", card "b", card "c"]
  rule r :=
    if r.name = some (utf8 "a") then (.ok, { r with active := some true })
    else if r.name = some (utf8 "c") then (.ok, { card "d" with active := some true })
    else (.detectionFailed, r)

def watching : Shared RuledBackend Instant :=
  { monitor := new (ruledRegistry .amd exchanging) {}, outside := 0 }

/-- Three devices, of which the second cannot be read again and the third comes back under another name. -/
theorem refreshAll_agrees_in_turn_of_exchanged :
    (∀ r, Shared.Outside ((ruledRegistry .amd exchanging).refresh r :
      Job (Shared RuledBackend Instant) (Status × Reading)) (· = ruledRefresh .amd exchanging r)) ∧
    ∃ w₁ st w' as w'', (ensureDetected : Job (Shared RuledBackend Instant) Unit).run watching =
        some ((), w₁) ∧
      (refreshAll : Job (Shared RuledBackend Instant) Status).run watching = some (st, w') ∧
      (refreshInTurn : Job (Shared RuledBackend Instant) (List Answer)).run watching =
        some (as, w'') ∧
      st = firstFailure (as.map Answer.status) ∧
      w'.monitor.inventory = w₁.monitor.inventory.mapDevices (kept (ruledRefresh .amd exchanging)) ∧
      w''.monitor.inventory =
        w₁.monitor.inventory.mapDevices (renewed (ruledRefresh .amd exchanging)) := by
  have hf (r : Reading) : Shared.Outside ((ruledRegistry .amd exchanging).refresh r :
      Job (Shared RuledBackend Instant) (Status × Reading)) (· = ruledRefresh .amd exchanging r) :=
    (yields_refresh_ruled .amd exchanging r).outside
  have hsize : ∀ w₁, (ensureDetected : Job (Shared RuledBackend Instant) Unit).run watching =
      some ((), w₁) → w₁.monitor.inventory.size < UInt64.size := by
    intro w₁ hrun
    -- the detection has one run, which is evaluated
    have hthree : ((ensureDetected : Job (Shared RuledBackend Instant) Unit).run watching).map
        (fun x => x.2.monitor.inventory.size) = some 3 := by decide
    rw [hrun, Option.map_some, Option.some.injEq] at hthree
    exact hthree ▸ by decide
  obtain ⟨w₁, rs, st, w', as, w'', hready, _, hall, hturn, _, hst, hkept, hrenewed, _⟩ :=
    refreshAll_agrees_in_turn (w := watching) hf rfl hsize
  exact ⟨hf, w₁, st, w', as, w'', hready, hall, hturn, hst.1, hkept, hrenewed⟩

/-- A refresh by itself stores the third device under its new name, and a refresh of all does not. -/
theorem new_identity_dropped_by_refreshAll :
    (∀ r, Shared.Outside ((ruledRegistry .amd exchanging).refresh r :
      Job (Shared RuledBackend Instant) (Status × Reading)) (· = ruledRefresh .amd exchanging r)) ∧
    ((refreshAll : Job (Shared RuledBackend Instant) Status).run watching).map (fun x =>
      x.2.monitor.inventory.devices.map Reading.name) =
        some [some (utf8 "a"), some (utf8 "b"), some (utf8 "c")] ∧
    ((refreshInTurn : Job (Shared RuledBackend Instant) (List Answer)).run watching).map (fun x =>
      x.2.monitor.inventory.devices.map Reading.name) =
        some [some (utf8 "a"), some (utf8 "b"), some (utf8 "d")] :=
  ⟨fun r => (yields_refresh_ruled .amd exchanging r).outside, by decide +kernel, by decide +kernel⟩

end Monitor

end GpuTelemetry
