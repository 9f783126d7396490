import GpuTelemetry.Proofs.Inventory
import Mathlib.Algebra.Group.Nat.Defs
import Mathlib.Tactic.ByContra
/-!
What the generation tells. It moves on with every replacement and every change of the primary device and
with nothing else, so over a run it counts these turns. A slot that was read is still the slot it was, with
its index in range, exactly if there was no turn since.
-/

namespace GpuTelemetry.Inventory

inductive Op where
  | replace (devices : List Reading)
  | setPrimary (index : UInt64)
  | updateSame (index : UInt64) (r : Reading)
  | updateSlot (s : Slot) (r : Reading)
  | get (index : UInt64)
  | slot (index : UInt64)
  | primarySlot

namespace Op

def apply (inv : Inventory) : Op → Inventory
  | .replace devices => inv.replace devices
  | .setPrimary index => (inv.setPrimary index).2
  | .updateSame index r => (inv.updateSame index r).2
  | .updateSlot s r => (inv.updateSlot s r).2
  | .get _ | .slot _ | .primarySlot => inv

def hands (inv : Inventory) : Op → Option Slot
  | .slot index => inv.slot? index
  | .primarySlot => inv.primarySlot?
  | _ => none

/-- A replacement, or a change of the primary device that is carried out. -/
def turns (inv : Inventory) : Op → Bool
  | .replace _ => true
  | .setPrimary index => (inv.setPrimary index).1 = .ok
  | _ => false

end Op

def after (inv : Inventory) (ops : List Op) : Inventory := ops.foldl Op.apply inv

def turns : Inventory → List Op → ℕ
  | _, [] => 0
  | inv, op :: ops => (if op.turns inv then 1 else 0) + turns (op.apply inv) ops

def Pointed (inv : Inventory) : Prop :=
  inv.primaryIndex.toNat < inv.devices.length ∨ inv.primaryIndex = 0 ∧ inv.devices = []

variable {inv : Inventory} {op : Op} {ops : List Op} {i : UInt64} {s : Slot} {r : Reading}

/-! ### One operation -/

theorem setPrimary_cases (inv : Inventory) (i : UInt64) :
    i.toNat < inv.devices.length ∧
      inv.setPrimary i = (.ok, { inv with primaryIndex := i, generation := inv.generation + 1 }) ∨
    ¬ i.toNat < inv.devices.length ∧ inv.setPrimary i = (.notFound, inv) := by
  by_cases h : i.toNat < inv.devices.length
  · exact Or.inl ⟨h, if_pos h⟩
  · exact Or.inr ⟨h, if_neg h⟩

/-- The reading is stored, or nothing changes. -/
theorem updateSlot_cases (inv : Inventory) (s : Slot) (r : Reading) :
    (inv.updateSlot s r).2 = inv.set s.index r ∨ (inv.updateSlot s r).2 = inv := by
  unfold updateSlot
  split
  · exact Or.inl rfl
  · exact Or.inr rfl

/-- What is not a turn changes readings at most. -/
theorem Op.apply_of_not_turns (h : op.turns inv = false) :
    op.apply inv = inv ∨ ∃ i r, op.apply inv = inv.set i r := by
  -- only a replacement and a choice of the primary device turn the generation
  cases op with
  | replace devices => cases h
  | setPrimary i =>
    obtain ⟨-, heq⟩ | ⟨-, heq⟩ := setPrimary_cases inv i
    · simp [Op.turns, heq] at h
    · left
      rw [Op.apply, heq]
  | updateSame i r =>
    obtain ⟨-, -, -, heq⟩ | heq := updateSame_cases inv i r
    · exact Or.inr ⟨i, r, heq⟩
    · exact Or.inl heq
  | updateSlot s r =>
    obtain heq | heq := updateSlot_cases inv s r
    · exact Or.inr ⟨s.index, r, heq⟩
    · exact Or.inl heq
  | get i => exact Or.inl rfl
  | slot i => exact Or.inl rfl
  | primarySlot => exact Or.inl rfl

/-- A turn moves the generation on by one, and nothing else does. -/
theorem Op.generation_apply (inv : Inventory) (op : Op) :
    (op.apply inv).generation = inv.generation + if op.turns inv then 1 else 0 := by
  cases h : op.turns inv with
  | false =>
    obtain heq | ⟨i, r, heq⟩ := op.apply_of_not_turns h
    · simp [heq]
    · simp [heq, Inventory.set]
  | true =>
    cases op with
    | replace devices => rfl
    | setPrimary i =>
      obtain ⟨-, heq⟩ | ⟨-, heq⟩ := setPrimary_cases inv i
      · simp [Op.apply, heq]
      · simp [Op.turns, heq] at h
    | updateSame | updateSlot | get | slot | primarySlot => cases h

theorem Op.length_apply (h : op.turns inv = false) :
    (op.apply inv).devices.length = inv.devices.length := by
  obtain heq | ⟨i, r, heq⟩ := op.apply_of_not_turns h
  · rw [heq]
  · rw [heq, Inventory.set, List.length_set]

theorem Pointed.set (h : Pointed inv) (i : UInt64) (r : Reading) : Pointed (inv.set i r) := by
  obtain hlt | ⟨hzero, hnil⟩ := h
  · left
    simpa [Inventory.set] using hlt
  · right
    exact ⟨hzero, by simp [Inventory.set, hnil]⟩

/-- Every operation leaves the primary device one of the devices. -/
theorem Pointed.apply (h : Pointed inv) (op : Op) : Pointed (op.apply inv) := by
  cases hturn : op.turns inv with
  | false =>
    obtain heq | ⟨i, r, heq⟩ := op.apply_of_not_turns hturn
    · rwa [heq]
    · rw [heq]
      exact h.set i r
  | true =>
    cases op with
    | replace devices =>
      cases devices with
      -- an empty collection has its index at zero
      | nil => exact Or.inr ⟨rfl, rfl⟩
      | cons d ds => exact Or.inl (Nat.succ_pos _)
    | setPrimary i =>
      obtain ⟨hlt, heq⟩ | ⟨-, heq⟩ := setPrimary_cases inv i
      · left
        rw [Op.apply, heq]
        exact hlt
      · simp [Op.turns, heq] at hturn
    | updateSame | updateSlot | get | slot | primarySlot => cases hturn

/-- With the primary index in range, only an empty collection has no primary device. -/
theorem Pointed.primarySlot?_eq_none (h : Pointed inv) :
    inv.primarySlot? = none ↔ inv.devices = [] := by
  have hnone : inv.primarySlot? = none ↔ inv.devices.length ≤ inv.primaryIndex.toNat := by
    simp [primarySlot?, slot?, get?]
  rw [hnone]
  constructor
  · intro hle
    obtain hlt | ⟨-, hnil⟩ := h
    · omega
    · exact hnil
  · intro hnil
    simp [hnil]

/-- A slot is handed out with the generation of the moment and an index in range. -/
theorem Op.hands_eq_some (h : op.hands inv = some s) :
    op.apply inv = inv ∧ s.generation = inv.generation ∧ s.index.toNat < inv.devices.length := by
  cases op with
  | slot i =>
    obtain ⟨hr, rfl, hg⟩ := slot?_eq_some.1 h
    exact ⟨rfl, hg, get?_lt hr⟩
  | primarySlot =>
    obtain ⟨hr, hi, hg⟩ := slot?_eq_some.1 h
    exact ⟨rfl, hg, hi ▸ get?_lt hr⟩
  | replace | setPrimary | updateSame | updateSlot | get => cases h

/-! ### A run -/

theorem after_append (inv : Inventory) (earlier later : List Op) :
    after inv (earlier ++ later) = after (after inv earlier) later :=
  List.foldl_append

/-- Turns add up. -/
theorem turns_append (inv : Inventory) (earlier later : List Op) :
    turns inv (earlier ++ later) = turns inv earlier + turns (after inv earlier) later := by
  induction earlier generalizing inv with
  | nil => simp [turns, after]
  | cons op ops ih =>
    calc turns inv (op :: ops ++ later)
        = (if op.turns inv then 1 else 0) + turns (op.apply inv) (ops ++ later) := rfl
      _ = (if op.turns inv then 1 else 0) + turns (op.apply inv) ops +
          turns (after (op.apply inv) ops) later := by rw [ih, Nat.add_assoc]
      _ = turns inv (op :: ops) + turns (after inv (op :: ops)) later := rfl

theorem pointed_after (h : Pointed inv) (ops : List Op) : Pointed (after inv ops) := by
  induction ops generalizing inv with
  | nil => exact h
  | cons op ops ih => exact ih (h.apply op)

/-- The generation counts the turns, modulo `2 ^ 64`. -/
theorem generation_after (inv : Inventory) (ops : List Op) :
    (after inv ops).generation = inv.generation + UInt64.ofNat (turns inv ops) := by
  induction ops generalizing inv with
  | nil => simp [after, turns]
  | cons op ops ih =>
    have hturn : UInt64.ofNat (if op.turns inv then 1 else 0) = if op.turns inv then 1 else 0 := by
      split <;> rfl
    calc (after inv (op :: ops)).generation
        = (op.apply inv).generation + UInt64.ofNat (turns (op.apply inv) ops) := ih _
      _ = inv.generation + UInt64.ofNat (turns inv (op :: ops)) := by
        rw [op.generation_apply, turns, UInt64.ofNat_add, hturn, UInt64.add_assoc]

/-- Without a turn there are as many devices as before. -/
theorem length_after (h : turns inv ops = 0) :
    (after inv ops).devices.length = inv.devices.length := by
  induction ops generalizing inv with
  | nil => rfl
  | cons op ops ih =>
    have hop : op.turns inv = false := by
      by_contra hturn
      simp [turns, hturn] at h
    have hops : turns (op.apply inv) ops = 0 := by
      rw [turns] at h
      omega
    calc (after inv (op :: ops)).devices.length
        = (op.apply inv).devices.length := ih hops
      _ = inv.devices.length := Op.length_apply hop

/-- As long as there are fewer than `2 ^ 64` turns, the generation is that of an earlier moment only if
there was no turn since. -/
theorem generation_after_eq_iff (h : turns inv ops < 2 ^ 64) :
    inv.generation = (after inv ops).generation ↔ turns inv ops = 0 := by
  rw [generation_after]
  constructor
  · intro heq
    have hzero : UInt64.ofNat (turns inv ops) = 0 := by
      have hadd : inv.generation + 0 = inv.generation + UInt64.ofNat (turns inv ops) := by
        rwa [UInt64.add_zero]
      exact ((UInt64.add_right_inj _).1 hadd).symm
    rw [← UInt64.toNat_inj, UInt64.toNat_ofNat_of_lt' h] at hzero
    exact hzero
  · intro hzero
    rw [hzero]
    exact (UInt64.add_zero _).symm

/-- What the update of a slot does that was handed out before a run. -/
theorem updateSlot_after (hs : s.generation = inv.generation) (hi : s.index.toNat < inv.devices.length)
    (h : turns inv ops < 2 ^ 64) (r : Reading) :
    (turns inv ops = 0 ∧ s.index.toNat < (after inv ops).devices.length ∧
      (after inv ops).updateSlot s r = (true, (after inv ops).set s.index r)) ∨
    (turns inv ops ≠ 0 ∧ (after inv ops).updateSlot s r = (false, after inv ops)) := by
  by_cases hzero : turns inv ops = 0
  · -- the number of devices is that of the moment of the reading, so the index is in range still
    have hlt : s.index.toNat < (after inv ops).devices.length := by
      rwa [length_after hzero]
    have hgeneration : s.generation = (after inv ops).generation := by
      rw [hs, generation_after_eq_iff h, hzero]
    exact Or.inl ⟨hzero, hlt, if_pos ⟨hgeneration, hlt⟩⟩
  · refine Or.inr ⟨hzero, if_neg ?_⟩
    rintro ⟨hgeneration, -⟩
    rw [hs, generation_after_eq_iff h] at hgeneration
    exact hzero hgeneration

/-- **The generation check.** After every run from the empty collection the primary index is in range, or
is zero and there are no devices; no primary device is handed out exactly if there are no devices; and a
change of the primary device that finds no device changes nothing. If there are fewer than `2 ^ 64` turns
in the run, the update of any slot handed out in it succeeds exactly if there was no turn since, then it
changes the reading of that slot and nothing else, and otherwise it changes nothing. -/
theorem updateSlot_iff_no_turn (ops : List Op) :
    Pointed (after {} ops) ∧
    ((after {} ops).primarySlot? = none ↔ (after {} ops).devices = []) ∧
    (∀ i, ((after {} ops).setPrimary i).1 = .notFound →
      ((after {} ops).setPrimary i).2 = after {} ops) ∧
    ∀ earlier op later s r, ops = earlier ++ op :: later → op.hands (after {} earlier) = some s →
      turns {} ops < 2 ^ 64 →
      (((after {} ops).updateSlot s r).1 = true ↔ turns (after {} (earlier ++ [op])) later = 0) ∧
      (((after {} ops).updateSlot s r).1 = true →
        s.index.toNat < (after {} ops).devices.length ∧
        ((after {} ops).updateSlot s r).2 =
          { after {} ops with devices := (after {} ops).devices.set s.index.toNat r }) ∧
      (((after {} ops).updateSlot s r).1 = false →
        ((after {} ops).updateSlot s r).2 = after {} ops) := by
  have hpointed : Pointed (after {} ops) := pointed_after (Or.inr ⟨rfl, rfl⟩) ops
  refine ⟨hpointed, hpointed.primarySlot?_eq_none, ?_, ?_⟩
  · intro i hi
    obtain ⟨-, heq⟩ | ⟨-, heq⟩ := setPrimary_cases (after {} ops) i
    · simp [heq] at hi
    · rw [heq]
  · rintro earlier op later s r rfl hs hturns
    obtain ⟨hsame, hgeneration, hindex⟩ := Op.hands_eq_some hs
    -- handing out a slot is only a look, so the history may be cut behind it
    have hread : after {} (earlier ++ [op]) = after {} earlier := by
      rw [after_append]
      exact hsame
    rw [← hread] at hgeneration hindex
    rw [List.append_cons, turns_append] at hturns
    rw [List.append_cons, after_append]
    have hsince : turns (after {} (earlier ++ [op])) later < 2 ^ 64 := by omega
    obtain ⟨hzero, hlt, heq⟩ | ⟨hzero, heq⟩ := updateSlot_after hgeneration hindex hsince r
    · rw [heq]
      exact ⟨by simp [hzero], fun _ => ⟨hlt, rfl⟩, fun hfalse => by cases hfalse⟩
    · rw [heq]
      exact ⟨by simp [hzero], fun htrue => absurd htrue Bool.false_ne_true, fun _ => rfl⟩

def oneRead (d : Reading) : List Op := [.replace [d], .slot 0, .setPrimary 0]

/-- A device is found, its slot is read, and the device is made the primary one; then the slot is too old.
-/
theorem updateSlot_iff_no_turn_of_setPrimary :
    oneRead {} = [.replace [{}]] ++ .slot 0 :: [.setPrimary 0] ∧
    Op.hands (after {} [.replace [{}]]) (.slot 0) = some ⟨{}, 0, 1⟩ ∧
    turns {} (oneRead {}) < 2 ^ 64 ∧
    ((after {} (oneRead {})).updateSlot ⟨{}, 0, 1⟩ {}).1 = false ∧
    ((after {} (oneRead {})).updateSlot ⟨{}, 0, 1⟩ {}).2 = after {} (oneRead {}) := by
  have hturns : turns {} (oneRead {}) < 2 ^ 64 := by decide
  have hsince : turns (after {} ([.replace [{}]] ++ [.slot 0])) [.setPrimary 0] = 1 := by decide
  obtain ⟨-, -, -, hslots⟩ := updateSlot_iff_no_turn (oneRead {})
  obtain ⟨hiff, -, hkept⟩ := hslots [.replace [{}]] (.slot 0) [.setPrimary 0] ⟨{}, 0, 1⟩ {} rfl rfl hturns
  have hfailed : ((after {} (oneRead {})).updateSlot ⟨{}, 0, 1⟩ {}).1 = false := by
    by_contra hstored
    have hzero := hiff.1 (by simpa using hstored)
    rw [hsince] at hzero
    cases hzero
  exact ⟨rfl, rfl, hturns, hfailed, hkept hfailed⟩

end GpuTelemetry.Inventory
