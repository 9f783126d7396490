import GpuTelemetry.Monitor.Views
import GpuTelemetry.Proofs.Filter
import GpuTelemetry.Proofs.Monitor.Range
import GpuTelemetry.Proofs.Monitor.Visit

namespace GpuTelemetry

variable {r : Reading} {rs : List Reading}

/-! ### Totals -/

def Statistics.ofFamily (s : Statistics) : Family → ℕ
  | .nvidia => s.nvidia
  | .amd => s.amd
  | .intel => s.intel
  | .unknown => s.unknown

inductive Tally where
  | all
  | family (f : Family)
  | active
  | temperature
  | power
deriving DecidableEq

namespace Tally

def total (s : Statistics) : Tally → ℕ
  | .all => s.total
  | .family f => s.ofFamily f
  | .active => s.active
  | .temperature => s.temperatureReadings
  | .power => s.powerReadings

def counts (r : Reading) : Tally → Bool
  | .all => true
  | .family f => f = r.vendor.family
  | .active => r.isActive
  | .temperature => r.temperatureC.isSome
  | .power => r.powerUsageW.isSome

variable {s : Statistics} {t : Tally}

theorem total_countFamily (f : Family) :
    t.total (s.countFamily f) = t.total s + (t = .family f : Bool).toNat := by
  cases t with
  | family g => cases f <;> cases g <;> rfl
  | _ => cases f <;> rfl

theorem total_countActive :
    t.total (s.countActive r) = t.total s + (t = .active && r.isActive).toNat := by
  unfold Statistics.countActive
  cases t with
  | family g => cases r.isActive <;> cases g <;> rfl
  | _ => cases r.isActive <;> rfl

theorem total_addTemperature (x : Option Decimal.Double) :
    t.total (s.addTemperature x) = t.total s + (t = .temperature && x.isSome).toNat := by
  cases t with
  | family g => cases x <;> cases g <;> rfl
  | _ => cases x <;> rfl

theorem total_addPower (x : Option Decimal.Double) :
    t.total (s.addPower x) = t.total s + (t = .power && x.isSome).toNat := by
  cases t with
  | family g => cases x <;> cases g <;> rfl
  | _ => cases x <;> rfl

/-- One more device adds one to each number that it counts for. -/
theorem total_add : t.total (s.add r) = t.total s + (t.counts r).toNat := by
  have hall : t.total { s with total := s.total + 1 } = t.total s + (t = .all : Bool).toNat := by
    cases t with
    | family f => cases f <;> rfl
    | _ => rfl
  rw [Statistics.add, total_addPower, total_addTemperature, total_countActive, total_countFamily, hall]
  cases t <;> simp [counts]

/-- Every number in the totals counts devices. -/
theorem total_ofDevices (rs : List Reading) :
    t.total (.ofDevices rs) = rs.countP (t.counts ·) := by
  -- from any totals on, since the loop goes on with those so far
  have hfold (s : Statistics) : t.total (rs.foldl .add s) = t.total s + rs.countP (t.counts ·) := by
    induction rs generalizing s with
    | nil => rfl
    | cons r rs ih =>
      rw [List.foldl_cons, ih, total_add, List.countP_cons, Bool.toNat, Bool.cond_eq_ite]
      omega
  have hzero : t.total {} = 0 := by
    cases t with
    | family f => cases f <;> rfl
    | _ => rfl
  rw [Statistics.ofDevices, hfold, hzero, Nat.zero_add]

end Tally

/-- Every device is of one of the families. -/
theorem countP_families (rs : List Reading) :
    rs.countP ((Tally.family .nvidia).counts ·) + rs.countP ((Tally.family .amd).counts ·) +
      rs.countP ((Tally.family .intel).counts ·) + rs.countP ((Tally.family .unknown).counts ·) =
        rs.length := by
  induction rs with
  | nil => rfl
  | cons r rs ih =>
    -- one more device is one more for its own family and for no other
    have hone : ((if (Tally.family .nvidia).counts r then 1 else 0) +
        (if (Tally.family .amd).counts r then 1 else 0) +
        (if (Tally.family .intel).counts r then 1 else 0) +
        if (Tally.family .unknown).counts r then 1 else 0) = 1 := by
      cases hf : r.vendor.family <;> simp [Tally.counts, hf]
    simp only [List.countP_cons, List.length_cons]
    omega

/-! ### Selections and positions -/

/-- One condition alone selects the devices that meet it. -/
theorem Filter.selected_singleton {c : Condition} : Selected [c] r ↔ c.MetBy r := by
  simp [Selected, latest?_singleton, Condition.ofKind]

theorem Filter.accepts_singleton {c : Condition} {b : Bool} (h : b = true ↔ c.MetBy r) :
    (Filter.ofConditions [c]).accepts r = b := by
  rw [Bool.eq_iff_iff, accepts_ofConditions, selected_singleton, h]

namespace Reading

theorem isActive_iff : r.isActive = true ↔ r.active = some true := by
  simp [isActive, Option.getD_eq_iff]

/-- The positions of the active devices are among all positions, in order. -/
theorem activeIndices_eq (start : ℕ) (rs : List Reading) :
    activeIndices start rs = ((rs.zipIdx start).filter (·.1.isActive)).map (·.2) := by
  induction rs generalizing start with
  | nil => rfl
  | cons r rs ih =>
    rw [activeIndices, List.zipIdx_cons, List.filter_cons, ih]
    cases r.isActive <;> rfl

theorem length_activeIndices (start : ℕ) (rs : List Reading) :
    (activeIndices start rs).length = rs.countP isActive := by
  induction rs generalizing start with
  | nil => rfl
  | cons r rs ih =>
    rw [activeIndices, List.countP_cons]
    cases r.isActive <;> simp [ih]

theorem pairwise_activeIndices (rs : List Reading) : (activeIndices 0 rs).Pairwise (· < ·) := by
  have hall : ((rs.zipIdx 0).map (·.2)).Pairwise (· < ·) := by
    rw [List.zipIdx_map_snd]
    exact List.pairwise_lt_range' 1
  rw [activeIndices_eq]
  exact hall.sublist (List.filter_sublist.map _)

/-- The active indices are those of the active devices. -/
theorem mem_activeIndices {i : ℕ} :
    i ∈ activeIndices 0 rs ↔ ∃ r, rs[i]? = some r ∧ r.active = some true := by
  rw [activeIndices_eq]
  simp [List.mem_zipIdx_iff_getElem?, isActive_iff]

theorem allActive_iff :
    allActive rs = true ↔ 0 < rs.length ∧ rs.countP isActive = rs.length := by
  rw [List.countP_eq_length, List.length_pos_iff]
  simp [allActive]

end Reading

/-! ### The views of a monitor -/

structure Views where
  devices : List Reading
  count : ℕ
  statistics : Statistics
  ofFamily : Vendor → List Reading
  activeIndices : List ℕ
  allActive : Bool

namespace Views

/-- Every view tells the same of the devices. -/
structure Agree (x : Views) : Prop where
  total : x.statistics.total = x.count
  families : x.statistics.nvidia + x.statistics.amd + x.statistics.intel + x.statistics.unknown =
    x.statistics.total
  family (v : Vendor) : x.statistics.ofFamily v.family = (x.ofFamily v).length
  ofFamily (v : Vendor) : x.ofFamily v = x.devices.filter (·.vendor.family = v.family)
  selected_family (v : Vendor) :
    (Filter.ofConditions [.vendor v]).collect x.devices = x.ofFamily v
  active : x.statistics.active = x.activeIndices.length
  increasing : x.activeIndices.Pairwise (· < ·)
  mem_activeIndices (i : ℕ) :
    i ∈ x.activeIndices ↔ ∃ r, x.devices[i]? = some r ∧ r.active = some true
  selected_active : (Filter.ofConditions [.activeOnly]).count x.devices = x.statistics.active
  selected_temperature :
    (Filter.ofConditions [.withTemperature]).count x.devices = x.statistics.temperatureReadings
  selected_power : (Filter.ofConditions [.withPower]).count x.devices = x.statistics.powerReadings
  allActive : x.allActive = true ↔
    0 < x.statistics.total ∧ x.statistics.active = x.statistics.total

def ofDevices (rs : List Reading) : Views where
  devices := rs
  count := rs.length
  statistics := .ofDevices rs
  ofFamily v := Reading.ofFamily v rs
  activeIndices := Reading.activeIndices 0 rs
  allActive := Reading.allActive rs

/-- A condition that says what is counted selects as many devices as are counted. -/
theorem count_singleton (c : Condition) (t : Tally) (h : ∀ r, t.counts r = true ↔ c.MetBy r)
    (rs : List Reading) : (Filter.ofConditions [c]).count rs = t.total (.ofDevices rs) := by
  rw [Tally.total_ofDevices]
  apply List.countP_congr
  intro r _
  rw [Filter.accepts_singleton (h r)]

theorem collect_vendor (v : Vendor) (rs : List Reading) :
    (Filter.ofConditions [.vendor v]).collect rs = Reading.ofFamily v rs := by
  apply List.filter_congr
  intro r _
  apply Filter.accepts_singleton
  simp [Vendor.sameFamily, Condition.MetBy]

theorem total_ofDevices (rs : List Reading) : (Statistics.ofDevices rs).total = rs.length := by
  have hall := Tally.total_ofDevices (t := .all) rs
  exact hall.trans (List.countP_eq_length.2 fun r _ => rfl)

theorem active_ofDevices (rs : List Reading) :
    (Statistics.ofDevices rs).active = rs.countP Reading.isActive :=
  Tally.total_ofDevices (t := .active) rs

theorem family_ofDevices (f : Family) (rs : List Reading) :
    (Statistics.ofDevices rs).ofFamily f = rs.countP ((Tally.family f).counts ·) :=
  Tally.total_ofDevices (t := .family f) rs

/-- The views of one list agree. -/
theorem agree_ofDevices (rs : List Reading) : (ofDevices rs).Agree where
  total := total_ofDevices rs
  families := by
    -- each device is of one family, so the families add up to all
    refine Eq.trans ?_ ((countP_families rs).trans (total_ofDevices rs).symm)
    simp only [← family_ofDevices]
    rfl
  family v := by
    change (Statistics.ofDevices rs).ofFamily v.family = (Reading.ofFamily v rs).length
    rw [family_ofDevices, Reading.ofFamily, ← List.countP_eq_length_filter]
    apply List.countP_congr
    intro r _
    rw [Tally.counts, decide_eq_true_iff, Vendor.sameFamily, beq_iff_eq, eq_comm]
  ofFamily v := rfl
  selected_family v := collect_vendor v rs
  active := (active_ofDevices rs).trans (Reading.length_activeIndices 0 rs).symm
  increasing := Reading.pairwise_activeIndices rs
  mem_activeIndices i := Reading.mem_activeIndices
  selected_active := count_singleton .activeOnly .active (fun _ => Reading.isActive_iff) rs
  selected_temperature :=
    count_singleton .withTemperature .temperature (fun _ => Option.isSome_iff_ne_none) rs
  selected_power := count_singleton .withPower .power (fun _ => Option.isSome_iff_ne_none) rs
  allActive := by
    change Reading.allActive rs = true ↔ 0 < (Statistics.ofDevices rs).total ∧
      (Statistics.ofDevices rs).active = (Statistics.ofDevices rs).total
    rw [total_ofDevices, active_ofDevices, Reading.allActive_iff]

end Views

namespace Monitor

variable {β σ α γ : Type} {w w' : Shared β σ}

/-- What is said of the result of a job is said where the job leaves off. -/
theorem run_return {job : Job (Shared β σ) α} {a : α} (h : job.run w = some (a, w')) (f : α → γ) :
    (do return f (← job)).run w = some (f a, w') := by
  rw [Job.run_bind, h]
  rfl

variable [BackendCalls β (StateM σ)] [Surroundings σ]

/-- A collection is held, or a detection can be made; then there is one. -/
theorem exists_detected (h : w.monitor.inventory.initialized = true ∨ w.detecting = false) :
    ∃ w', (ensureDetected : Job (Shared β σ) Unit).run w = some ((), w') ∧
      w'.monitor.inventory.initialized = true ∧
      (w.monitor.inventory.initialized = true → w' = w) := by
  cases hi : w.monitor.inventory.initialized with
  | true => exact ⟨w, run_ensureDetected hi, hi, fun _ => rfl⟩
  | false =>
    have hfree : w.detecting = false := h.resolve_left (by simp [hi])
    obtain ⟨_, w', hrun, _, hheld, _⟩ := ends_ready hfree
    exact ⟨w', hrun, hheld, nofun⟩

/-- **The views of a collection agree.** Whatever devices a monitor holds, or finds when it is asked first,
all that it tells of them as a whole is about the same list: the totals, their breakdown by vendors, the
devices of a family, the positions of the active ones, whether all are active, and what a filter on a vendor,
on activity or on a metric selects. Where a collection is held already, asking changes nothing. -/
theorem views_agree (h : w.monitor.inventory.initialized = true ∨ w.detecting = false) :
    ∃ (x : Views) (w' : Shared β σ), x.Agree ∧ x.devices = w'.monitor.inventory.devices ∧
      w'.monitor.inventory.initialized = true ∧ (w.monitor.inventory.initialized = true → w' = w) ∧
      (devices : Job (Shared β σ) (List Reading)).run w = some (x.devices, w') ∧
      (count : Job (Shared β σ) ℕ).run w = some (x.count, w') ∧
      (statistics : Job (Shared β σ) Statistics).run w = some (x.statistics, w') ∧
      (∀ v, (ofFamily v : Job (Shared β σ) (List Reading)).run w = some (x.ofFamily v, w')) ∧
      (activeIndices : Job (Shared β σ) (List ℕ)).run w = some (x.activeIndices, w') ∧
      (allActive : Job (Shared β σ) Bool).run w = some (x.allActive, w') := by
  obtain ⟨w', hready, hheld, hsame⟩ := exists_detected h
  have hdevices : (devices : Job (Shared β σ) (List Reading)).run w =
      some (w'.monitor.inventory.devices, w') := by
    rw [devices, Job.run_bind, hready]
    rfl
  have hcount : (count : Job (Shared β σ) ℕ).run w =
      some (w'.monitor.inventory.devices.length, w') := by
    rw [count, Job.run_bind, hready]
    rfl
  exact ⟨.ofDevices w'.monitor.inventory.devices, w', Views.agree_ofDevices _, rfl, hheld, hsame,
    hdevices, hcount, run_return hdevices _, fun v => run_return hdevices _, run_return hdevices _,
    run_return hdevices _⟩

def unaskedMonitor : Shared StillBackend Instant :=
  { monitor := new (stillRegistry .intel Filter.mixedDevices) {}, outside := 0 }

/-- Nothing has been asked of this monitor; the first view detects its three devices, of which one is
active. -/
theorem views_agree_of_unasked : unaskedMonitor.detecting = false ∧
    ∃ (x : Views) (w' : Shared StillBackend Instant), x.Agree ∧
      (devices : Job (Shared StillBackend Instant) (List Reading)).run unaskedMonitor =
        some (x.devices, w') ∧
      (count : Job (Shared StillBackend Instant) ℕ).run unaskedMonitor = some (x.count, w') ∧
      x.count = 3 ∧
      (activeIndices : Job (Shared StillBackend Instant) (List ℕ)).run unaskedMonitor =
        some (x.activeIndices, w') ∧
      x.activeIndices = [1] := by
  have hfree : unaskedMonitor.detecting = false := rfl
  obtain ⟨x, w', hagree, -, -, -, hdevices, hcount, -, -, hactive, -⟩ := views_agree (Or.inr hfree)
  have hthree : ((count : Job (Shared StillBackend Instant) ℕ).run unaskedMonitor).map Prod.fst =
      some 3 := by decide
  have hsecond : ((activeIndices : Job (Shared StillBackend Instant) (List ℕ)).run
      unaskedMonitor).map Prod.fst = some [1] := by decide
  rw [hcount] at hthree
  rw [hactive] at hsecond
  exact ⟨hfree, x, w', hagree, hdevices, hcount, Option.some.inj hthree, hactive,
    Option.some.inj hsecond⟩

end Monitor

end GpuTelemetry
