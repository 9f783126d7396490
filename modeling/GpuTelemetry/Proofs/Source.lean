import GpuTelemetry.Source
import GpuTelemetry.Proofs.Reading.Identity
import Mathlib.Data.List.Basic

namespace GpuTelemetry

theorem Detection.outcome_ofReadings {found : List Reading} (h : found ≠ []) :
    (Detection.ofReadings found).outcome = .returned .ok := by
  simp [Detection.ofReadings, h]

/-- A search ends with a reading that fits, or nothing fits and nothing is changed. -/
theorem Attempt.among_cases (fits : Reading → Bool) (found : List Reading) (r : Reading) :
    (∃ f ∈ found, fits f = true ∧ Attempt.among fits found r = ⟨f, .returned .ok⟩) ∨
    (∀ f ∈ found, fits f = false) ∧ Attempt.among fits found r = ⟨r, .returned .detectionFailed⟩ := by
  unfold Attempt.among
  cases h : found.find? fits with
  | some f => exact Or.inl ⟨f, List.mem_of_find?_eq_some h, List.find?_some h, rfl⟩
  | none =>
    refine Or.inr ⟨?_, rfl⟩
    intro f hf
    simpa using List.find?_eq_none.1 h f hf

/-- The first reading that fits, if one does, is what is read again. -/
theorem Attempt.among_of_fits {fits : Reading → Bool} {found : List Reading} {k : ℕ} {r : Reading}
    (hr : found[k]? = some r) (hfits : fits r = true) :
    ∃ j f, j ≤ k ∧ found[j]? = some f ∧ fits f = true ∧
      (∀ l < j, ∀ g, found[l]? = some g → fits g = false) ∧
      Attempt.among fits found r = ⟨f, .returned .ok⟩ := by
  have hsome : (found.find? fits).isSome := List.find?_isSome.2 ⟨r, List.mem_of_getElem? hr, hfits⟩
  obtain ⟨f, hf⟩ := Option.isSome_iff_exists.1 hsome
  obtain ⟨hfit, j, hj, rfl, hbefore⟩ := List.find?_eq_some_iff_getElem.1 hf
  refine ⟨j, found[j], ?_, List.getElem?_eq_getElem hj, hfit, fun l hl g hg => ?_, ?_⟩
  · -- the reading itself fits, so the first one that does is not behind it
    by_contra hlt
    obtain ⟨hk, hget⟩ := List.getElem?_eq_some_iff.1 hr
    have hno := hbefore k (Nat.lt_of_not_le hlt)
    rw [hget, hfits] at hno
    cases hno
  · obtain ⟨hl', rfl⟩ := List.getElem?_eq_some_iff.1 hg
    simpa using hbefore l hl
  · rw [Attempt.among, hf]

namespace Source

open Reading (same_iff)

variable {b : Source} {t : FileTree} {r a : Reading} {k : ℕ}

def readings (t : FileTree) : Source → List Reading
  | .smi run => Smi.readings run
  | .amd => Sysfs.Amd.readings t
  | .intel => Sysfs.Intel.readings t
  | .nvml => []

def fits (r : Reading) : Source → Reading → Bool
  | .smi _ | .amd => (·.same r)
  | .intel => (·.name == r.name)
  | .nvml => fun _ => false

theorem detect_eq (b : Source) (t : FileTree) : b.detect t = .ofReadings (b.readings t) := by
  cases b <;> rfl

/-- A source reads all its devices again and takes the first that fits. -/
theorem refresh_eq (b : Source) (t : FileTree) (r : Reading) :
    b.refresh t r = .among (b.fits r) (b.readings t) r := by
  cases b <;> rfl

def vendorOf (name : Option Text) : Source → Vendor
  | .smi _ | .nvml => .nvidia
  | .amd => .amd
  | .intel => .intel (Sysfs.Intel.kindOf (name.getD []))

theorem vendor_of_parseLine {line : Text} (h : Smi.parseLine line = some r) : r.vendor = .nvidia := by
  unfold Smi.parseLine at h
  split at h
  · obtain ⟨name, _, rfl⟩ := Option.map_eq_some_iff.1 h
    rfl
  · cases h

/-- The name of a device tells its vendor. -/
theorem vendor_of_mem (h : r ∈ b.readings t) : r.vendor = b.vendorOf r.name := by
  cases b with
  | smi run =>
    simp only [readings, Smi.readings] at h
    split at h
    · obtain ⟨line, _, hline⟩ := List.mem_filterMap.1 h
      split at hline
      · cases hline
      · exact vendor_of_parseLine hline
    · cases h
  | amd =>
    obtain ⟨card, _, rfl⟩ := List.mem_map.1 h
    rfl
  | intel =>
    obtain ⟨card, _, rfl⟩ := List.mem_map.1 h
    rfl
  | nvml => cases h

/-- Among the devices of a source the name is the identity. -/
theorem fits_iff (ha : a ∈ b.readings t) (hr : r ∈ b.readings t) :
    b.fits r a = true ↔ a.name = r.name := by
  have hvendor (hconst : b.vendorOf a.name = b.vendorOf r.name) : a.vendor.same r.vendor = true := by
    rw [vendor_of_mem ha, vendor_of_mem hr, hconst, Vendor.same_self]
  -- a name tells the vendor here, so comparing vendors adds nothing
  cases b with
  | smi run => exact same_iff.trans (and_iff_right (hvendor rfl))
  | amd => exact same_iff.trans (and_iff_right (hvendor rfl))
  | intel => exact beq_iff_eq
  | nvml => cases ha

/-- **A refresh reads the first device of the name.** Whatever a source lists, refreshing the `k`-th
reading of the list is a success and gives the first reading of the list with the same name, which has
the same vendor too. So it changes nothing unless a reading before it has its name. -/
theorem refresh_of_detected (b : Source) (t : FileTree) (h : (b.detect t).found[k]? = some r) :
    (b.detect t).outcome = .returned .ok ∧
    (∃ j f, j ≤ k ∧ (b.detect t).found[j]? = some f ∧ f.vendor = r.vendor ∧ f.name = r.name ∧
      (∀ l < j, ∀ g, (b.detect t).found[l]? = some g → g.name ≠ r.name) ∧
      b.refresh t r = ⟨f, .returned .ok⟩) ∧
    ((∀ l < k, ∀ g, (b.detect t).found[l]? = some g → g.name ≠ r.name) →
      b.refresh t r = ⟨r, .returned .ok⟩) := by
  have hdetect : (b.detect t).found = b.readings t := by rw [detect_eq]; rfl
  rw [hdetect] at h ⊢
  have hmem := List.mem_of_getElem? h
  obtain ⟨j, f, hjk, hj, hfit, hbefore, hamong⟩ := Attempt.among_of_fits h ((fits_iff hmem hmem).2 rfl)
  have hname := (fits_iff (List.mem_of_getElem? hj) hmem).1 hfit
  have hrefresh := (refresh_eq b t r).trans hamong
  refine ⟨?_, ⟨j, f, hjk, hj, ?_, hname, fun l hl g hg heq => ?_, hrefresh⟩, fun hfirst => ?_⟩
  · rw [detect_eq]
    exact Detection.outcome_ofReadings (List.ne_nil_of_mem hmem)
  · rw [vendor_of_mem (List.mem_of_getElem? hj), vendor_of_mem hmem, hname]
  · -- an earlier one of that name would have been taken
    have hfit' := (fits_iff (List.mem_of_getElem? hg) hmem).2 heq
    rw [hbefore l hl g hg] at hfit'
    cases hfit'
  · obtain rfl | hlt := Nat.eq_or_lt_of_le hjk
    · rw [hrefresh, Option.some.inj (hj.symm.trans h)]
    · exact absurd hname (hfirst j hlt f hj)

def twins : Source := .smi ⟨utf8 "A,1,,,,,,,,,\nA,2,,,,,,,,,\n", .exited 0⟩

/-- Two devices of one name that differ in their driver. -/
theorem refresh_of_detected_of_twins : ∃ r, (twins.detect .empty).found[1]? = some r ∧
    (twins.detect .empty).outcome = .returned .ok ∧
    (∃ j f, j ≤ 1 ∧ (twins.detect .empty).found[j]? = some f ∧ f.vendor = r.vendor ∧
      f.name = r.name ∧ (∀ l < j, ∀ g, (twins.detect .empty).found[l]? = some g → g.name ≠ r.name) ∧
      twins.refresh .empty r = ⟨f, .returned .ok⟩) ∧
    ((∀ l < 1, ∀ g, (twins.detect .empty).found[l]? = some g → g.name ≠ r.name) →
      twins.refresh .empty r = ⟨r, .returned .ok⟩) := by
  have hsome : ((twins.detect .empty).found[1]?).isSome := by decide +kernel
  obtain ⟨r, hr⟩ := Option.isSome_iff_exists.1 hsome
  exact ⟨r, hr, refresh_of_detected twins .empty hr⟩

/-- The second of two devices of one name is read again as the first. -/
theorem second_twin_read_as_first :
    (twins.detect .empty).found.map (·.driverVersion) = [some (utf8 "1"), some (utf8 "2")] ∧
    (twins.detect .empty).found.map (fun r => (twins.refresh .empty r).outcome) =
      [.returned .ok, .returned .ok] ∧
    (twins.detect .empty).found.map (fun r => (twins.refresh .empty r).reading.driverVersion) =
      [some (utf8 "1"), some (utf8 "1")] := by
  decide +kernel

/-! ### Readings from elsewhere -/

/-- The vendor of a reading is the one that its name tells the source. Only Intel graphics have to be
asked about, since for them the source does not look at it. -/
def Owns (b : Source) (r : Reading) : Prop :=
  b = .intel → (b.vendorOf r.name).same r.vendor = true

/-- What fits has the name, and the vendor unless that is not looked at. -/
theorem fits_of_mem_iff (ha : a ∈ b.readings t) :
    b.fits r a = true ↔ a.name = r.name ∧ (b = .intel ∨ a.vendor.same r.vendor = true) := by
  cases b with
  | smi run => simpa [fits] using same_iff.trans and_comm
  | amd => simpa [fits] using same_iff.trans and_comm
  | intel => simp [fits]
  | nvml => cases ha

/-- For a reading that is the source's own the search is by identity. -/
theorem fits_iff_same (h : b.Owns r) (ha : a ∈ b.readings t) : b.fits r a = true ↔ a.same r = true := by
  rw [fits_of_mem_iff ha, same_iff, and_comm]
  refine and_congr_left fun hname => ⟨fun hfit => ?_, Or.inr⟩
  rcases hfit with hintel | hvendor
  · rw [vendor_of_mem ha, hname]
    exact h hintel
  · exact hvendor

/-- **A refresh goes by identity.** Whatever a source reports and whichever reading it is asked to
refresh: if a device with the name and the vendor is there, it becomes such a device's reading, and
otherwise the refresh fails and leaves it as it was. Intel graphics are looked for by their name only,
and then the identity stays if the vendor was the one that the name tells. -/
theorem refresh_by_identity (b : Source) (t : FileTree) (r : Reading) :
    ((b.refresh t r).outcome = .returned .ok ↔ ∃ f ∈ (b.detect t).found,
      f.name = r.name ∧ (b = .intel ∨ f.vendor.same r.vendor = true)) ∧
    ((b.refresh t r).outcome = .returned .ok → (b.refresh t r).reading ∈ (b.detect t).found ∧
      (b.refresh t r).reading.name = r.name ∧
      ((b.refresh t r).reading.same r = true ↔ (b.vendorOf r.name).same r.vendor = true)) ∧
    ((b.refresh t r).outcome ≠ .returned .ok →
      b.refresh t r = ⟨r, .returned .detectionFailed⟩) ∧
    (b.Owns r →
      ((b.refresh t r).outcome = .returned .ok ↔ ∃ f ∈ (b.detect t).found, f.same r = true) ∧
      ((b.refresh t r).outcome = .returned .ok → (b.refresh t r).reading.same r = true)) := by
  have hdetect : (b.detect t).found = b.readings t := by rw [detect_eq]; rfl
  rw [hdetect, refresh_eq]
  rcases Attempt.among_cases (b.fits r) (b.readings t) r with ⟨f, hf, hfit, hread⟩ | ⟨hnone, hfail⟩
  -- a device fits, and the reading becomes that device's
  · rw [hread]
    have hname : f.name = r.name := ((fits_of_mem_iff hf).1 hfit).1
    have hsame : f.same r = true ↔ (b.vendorOf r.name).same r.vendor = true := by
      rw [same_iff, vendor_of_mem hf, hname]
      exact and_iff_left rfl
    refine ⟨?_, fun _ => ⟨hf, hname, hsame⟩, fun hno => absurd rfl hno, fun howns => ?_⟩
    · exact iff_of_true rfl ⟨f, hf, (fits_of_mem_iff hf).1 hfit⟩
    · have hown : f.same r = true := (fits_iff_same howns hf).1 hfit
      exact ⟨iff_of_true rfl ⟨f, hf, hown⟩, fun _ => hown⟩
  -- no device fits, so none has what the search asks for
  · rw [hfail]
    have hnot (P : Reading → Prop) (hP : ∀ f ∈ b.readings t, b.fits r f = true ↔ P f) :
        ¬ ∃ f ∈ b.readings t, P f := by
      rintro ⟨f, hf, h⟩
      have hfit := (hP f hf).2 h
      rw [hnone f hf] at hfit
      cases hfit
    refine ⟨?_, fun hok => ?_, fun _ => rfl, fun howns => ⟨?_, fun hok => ?_⟩⟩
    · exact iff_of_false nofun (hnot _ fun f hf => fits_of_mem_iff hf)
    · cases hok
    · exact iff_of_false nofun (hnot _ fun f hf => fits_iff_same howns hf)
    · cases hok

def arcTree : FileTree where
  top := .directory [(utf8 "class", .directory [(utf8 "drm", .directory [(utf8 "card0", .directory
    [(utf8 "device", .directory [(utf8 "vendor", .file (utf8 "0x8086")),
      (utf8 "label", .file (utf8 "Arc"))])])])])]
  way := (utf8 "/sys/").length

def arc (kind : IntelKind) : Reading := { vendor := .intel kind, name := some (utf8 "Arc") }

/-- A card of its own, known by its name, is read again. -/
theorem refresh_by_identity_of_arc :
    Owns .intel (arc .discrete) ∧
    (Source.intel.refresh arcTree (arc .discrete)).outcome = .returned .ok ∧
    (Source.intel.refresh arcTree (arc .discrete)).reading.same (arc .discrete) = true := by
  have howns : Owns .intel (arc .discrete) := fun _ => by decide +kernel
  have hok : (Source.intel.refresh arcTree (arc .discrete)).outcome = .returned .ok := by
    decide +kernel
  exact ⟨howns, hok, ((refresh_by_identity .intel arcTree (arc .discrete)).2.2.2 howns).2 hok⟩

/-- A reading of the same name and another kind is refreshed too, though no device has its identity, and
that changes its identity. -/
theorem other_kind_read_as_discrete :
    (¬ ∃ f ∈ (Source.intel.detect arcTree).found, f.same (arc .unknown) = true) ∧
    (Source.intel.refresh arcTree (arc .unknown)).outcome = .returned .ok ∧
    (Source.intel.refresh arcTree (arc .unknown)).reading.vendor = .intel .discrete := by
  decide +kernel

end Source

end GpuTelemetry
