import GpuTelemetry.Reading.Basic
import Mathlib.Data.Set.Card

namespace GpuTelemetry

namespace Vendor

variable {u v v' : Vendor}

theorem same_iff : u.same v = true ↔ u.family = v.family ∧ (u.family = .intel → u.kind = v.kind) := by
  simp only [same, Bool.and_eq_true, Bool.or_eq_true, beq_iff_eq, bne_iff_ne, ne_eq, imp_iff_not_or]

theorem same_self (v : Vendor) : v.same v = true := same_iff.2 ⟨rfl, fun _ => rfl⟩

theorem family_of_same (h : u.same v = true) : u.family = v.family := (same_iff.1 h).1

theorem same_symm (h : u.same v = true) : v.same u = true := by
  obtain ⟨hfamily, hkind⟩ := same_iff.1 h
  exact same_iff.2 ⟨hfamily.symm, fun hintel => (hkind (hfamily.trans hintel)).symm⟩

theorem same_trans (h : u.same v = true) (h' : v.same v' = true) : u.same v' = true := by
  obtain ⟨hfamily, hkind⟩ := same_iff.1 h
  obtain ⟨hfamily', hkind'⟩ := same_iff.1 h'
  refine same_iff.2 ⟨hfamily.trans hfamily', fun hintel => ?_⟩
  exact (hkind hintel).trans (hkind' (hfamily.symm.trans hintel))

/-- The hash leaves out the kind where identity does. -/
theorem identityHash_congr (hashNat : ℕ → UInt64) (h : u.same v = true) :
    u.identityHash hashNat = v.identityHash hashNat := by
  obtain ⟨hfamily, hkind⟩ := same_iff.1 h
  have hsub : (if u.family = .intel then u.kind.index else 0) =
      if v.family = .intel then v.kind.index else 0 := by
    rw [← hfamily]
    split
    · rename_i hintel
      rw [hkind hintel]
    · rfl
  rw [identityHash, identityHash, hsub, hfamily]

end Vendor

namespace Reading

variable {a b c : Reading}

theorem same_iff : a.same b = true ↔ a.vendor.same b.vendor = true ∧ a.name = b.name := by
  simp [same]

/-- To be of one device is an equivalence. -/
theorem equivalence_same : Equivalence fun a b : Reading => a.same b = true where
  refl a := same_iff.2 ⟨a.vendor.same_self, rfl⟩
  symm h := same_iff.2 ⟨Vendor.same_symm (same_iff.1 h).1, (same_iff.1 h).2.symm⟩
  trans h h' := same_iff.2
    ⟨Vendor.same_trans (same_iff.1 h).1 (same_iff.1 h').1, (same_iff.1 h).2.trans (same_iff.1 h').2⟩

theorem same_self (d : Reading) : d.same d = true := equivalence_same.refl d

theorem same_congr (h : a.same b = true) (d : Reading) : d.same a = d.same b := by
  rw [Bool.eq_iff_iff]
  exact ⟨fun hd => equivalence_same.trans hd h,
    fun hd => equivalence_same.trans hd (equivalence_same.symm h)⟩

theorem same_of_sameSnapshot (h : a.sameSnapshot b = true) : a.same b = true := by
  simp only [sameSnapshot, Bool.and_eq_true] at h
  obtain ⟨⟨⟨⟨⟨⟨⟨⟨⟨⟨⟨⟨hvendor, hname⟩, -⟩, -⟩, -⟩, -⟩, -⟩, -⟩, -⟩, -⟩, -⟩, -⟩, -⟩ := h
  exact same_iff.2 ⟨hvendor, beq_iff_eq.1 hname⟩

theorem identityHash_congr (hashText : Text → UInt64) (hashNat : ℕ → UInt64) (h : a.same b = true) :
    a.identityHash hashText hashNat = b.identityHash hashText hashNat := by
  obtain ⟨hvendor, hname⟩ := same_iff.1 h
  rw [identityHash, identityHash, Vendor.identityHash_congr hashNat hvendor, hname]

def identity : Setoid Reading := ⟨fun a b => a.same b = true, equivalence_same⟩

abbrev Device : Type := Quotient identity

def device (r : Reading) : Device := Quotient.mk identity r

theorem device_eq : a.device = b.device ↔ a.same b = true := Quotient.eq

end Reading

open Reading (Device)

namespace IdentitySet

def devices (s : IdentitySet) : List Device := s.members.map fun m => m.2.device

/-- The hash looks at no more than the identity, the members are where it puts them, and no device has
two of them. -/
structure WellFormed (s : IdentitySet) : Prop where
  respects : ∀ a b : Reading, a.same b = true → s.hash a = s.hash b
  hashed : ∀ m ∈ s.members, m.1 = s.hash m.2
  once : s.devices.Nodup

variable {s : IdentitySet} {r : Reading}

/-- An empty set is well-formed if the hash looks at the identity only. -/
theorem wellFormed_empty {hash : Reading → UInt64}
    (h : ∀ a b : Reading, a.same b = true → hash a = hash b) : WellFormed { hash } :=
  ⟨h, fun _ hm => absurd hm List.not_mem_nil, List.nodup_nil⟩

theorem not_mem_devices_empty {hash : Reading → UInt64} (c : Device) : c ∉ devices { hash } :=
  List.not_mem_nil

/-- To look among the members with the same hash is enough. -/
theorem WellFormed.contains_iff (h : s.WellFormed) : s.contains r = true ↔ r.device ∈ s.devices := by
  simp only [contains, devices, List.any_eq_true, Bool.and_eq_true, beq_iff_eq, List.mem_map,
    Reading.device_eq]
  constructor
  · rintro ⟨m, hm, -, hsame⟩
    exact ⟨m, hm, hsame⟩
  · rintro ⟨m, hm, hsame⟩
    exact ⟨m, hm, (h.hashed m hm).trans (h.respects _ _ hsame), hsame⟩

/-- A reading goes in if its device is not there, and the device is there afterwards. -/
theorem WellFormed.insert (h : s.WellFormed) (r : Reading) :
    (s.insert r).2.WellFormed ∧ ((s.insert r).1 = true ↔ r.device ∉ s.devices) ∧
      ∀ c, c ∈ (s.insert r).2.devices ↔ c ∈ s.devices ∨ c = r.device := by
  unfold IdentitySet.insert
  split
  case isTrue hold =>
    have hmem : r.device ∈ s.devices := h.contains_iff.1 hold
    refine ⟨h, iff_of_false Bool.false_ne_true (not_not_intro hmem), fun c => ?_⟩
    exact (or_iff_left_of_imp fun hc => hc ▸ hmem).symm
  case isFalse hnew =>
    have hnone : r.device ∉ s.devices := fun hmem => hnew (h.contains_iff.2 hmem)
    refine ⟨⟨h.respects, List.forall_mem_cons.2 ⟨rfl, h.hashed⟩, List.nodup_cons.2 ⟨hnone, h.once⟩⟩,
      iff_of_true rfl hnone, fun c => ?_⟩
    rw [or_comm]
    exact List.mem_cons

/-- Of readings that go in one after the other those stay out whose device is there already, from the start
or because of a reading before. -/
theorem WellFormed.insertAll (h : s.WellFormed) (rs : List Reading) :
    (s.insertAll rs).2.WellFormed ∧
    (∀ c, c ∈ (s.insertAll rs).2.devices ↔ c ∈ s.devices ∨ c ∈ rs.map Reading.device) ∧
    (s.insertAll rs).1.length = rs.length ∧
    ∀ i r, rs[i]? = some r → ((s.insertAll rs).1[i]? = some true ↔
      r.device ∉ s.devices ∧ r.device ∉ (rs.take i).map Reading.device) := by
  induction rs generalizing s with
  | nil =>
    refine ⟨h, fun c => ?_, rfl, fun i r hr => ?_⟩
    · rw [List.map_nil, or_iff_left List.not_mem_nil]
      rfl
    · cases hr
  | cons a rs ih =>
    obtain ⟨hwell, hnew, hdevices⟩ := h.insert a
    obtain ⟨hwells, hmem, hlength, hfresh⟩ := ih hwell
    refine ⟨hwells, fun c => ?_, congrArg (· + 1) hlength, fun i r hr => ?_⟩
    · rw [List.map_cons, List.mem_cons, ← or_assoc, ← hdevices]
      exact hmem c
    · cases i with
      | zero =>
        -- the first reading meets what was there from the start
        obtain rfl : a = r := Option.some.inj hr
        rw [List.take_zero, List.map_nil, and_iff_left List.not_mem_nil, ← hnew]
        exact Option.some_inj
      | succ i =>
        rw [List.take_succ_cons, List.map_cons, List.mem_cons, not_or, ← and_assoc, ← not_or, ← hdevices]
        exact hfresh i r hr

/-- There is a member for each device. -/
theorem WellFormed.size_eq (h : s.WellFormed) : s.size = {c | c ∈ s.devices}.ncard := by
  classical
  have hset : {c | c ∈ s.devices} = (s.devices.toFinset : Set Device) := by simp
  rw [hset, Set.ncard_coe_finset, List.toFinset_card_of_nodup h.once, devices, List.length_map, size]

/-- **One reading of each device.** To be of one device is an equivalence, which looks at the name, at the
family of the vendor and, for Intel, at its kind. Readings of one device have one hash, whatever hashes of
texts and numbers it is made of, and readings that agree in every field are of one device. So of readings put
into a set one after the other those go in that are of the device of none before, and in the end there is one
for each device. -/
theorem one_for_each_device (hashText : Text → UInt64) (hashNat : ℕ → UInt64) :
    Equivalence (fun a b : Reading => a.same b = true) ∧
    (∀ a b : Reading, a.same b = true ↔ a.vendor.family = b.vendor.family ∧
      (a.vendor.family = .intel → a.vendor.kind = b.vendor.kind) ∧ a.name = b.name) ∧
    (∀ a b : Reading, a.same b = true →
      a.identityHash hashText hashNat = b.identityHash hashText hashNat) ∧
    (∀ a b : Reading, a.sameSnapshot b = true → a.same b = true) ∧
    ∀ rs : List Reading, ∃ fresh set,
      insertAll { hash := Reading.identityHash hashText hashNat } rs = (fresh, set) ∧
      fresh.length = rs.length ∧
      (∀ i r, rs[i]? = some r → (fresh[i]? = some true ↔ ∀ a ∈ rs.take i, a.same r = false)) ∧
      set.size = (Reading.device '' {r | r ∈ rs}).ncard := by
  have hhash (a b : Reading) := Reading.identityHash_congr (a := a) (b := b) hashText hashNat
  refine ⟨Reading.equivalence_same, fun a b => ?_, hhash, fun a b => Reading.same_of_sameSnapshot,
    fun rs => ⟨_, _, rfl, ?_⟩⟩
  · rw [Reading.same_iff, Vendor.same_iff, and_assoc]
  · obtain ⟨hwell, hmem, hlength, hfresh⟩ := (wellFormed_empty hhash).insertAll rs
    refine ⟨hlength, fun i r hr => ?_, ?_⟩
    · rw [hfresh i r hr, and_iff_right (not_mem_devices_empty _)]
      simp only [List.mem_map, Reading.device_eq, not_exists, not_and, Bool.not_eq_true]
    · -- the entries of the set are the devices that were inserted
      rw [hwell.size_eq]
      congr 1
      ext c
      exact (hmem c).trans ((or_iff_right (not_mem_devices_empty c)).trans List.mem_map)

/-- Two readings of one card, which is no Intel card, so that a kind makes no other one of it. -/
example :
    (insertAll { hash := Reading.identityHash (fun s => s.length.toUInt64) (·.toUInt64) }
      [{ vendor := .amd, name := some (utf8 "A") },
       { vendor := { family := .amd, kind := .discrete }, name := some (utf8 "A"), active := some true },
       { vendor := .amd, name := some [] }, { vendor := .amd }]).1 = [true, false, true, true] := by
  decide +kernel

end IdentitySet

end GpuTelemetry
