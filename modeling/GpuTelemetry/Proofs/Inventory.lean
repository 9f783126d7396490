import GpuTelemetry.Inventory

namespace GpuTelemetry.Inventory

variable {inv : Inventory} {i j : UInt64} {r r' : Reading} {s : Slot}

theorem get?_lt (h : inv.get? i = some r) : i.toNat < inv.devices.length :=
  (List.getElem?_eq_some_iff.1 h).1

theorem get?_set_self (h : inv.get? i = some r) : (inv.set i r').get? i = some r' := by
  simp [get?, set, get?_lt h]

theorem get?_set_of_ne (h : j ≠ i) : (inv.set i r).get? j = inv.get? j := by
  have hne : i.toNat ≠ j.toNat := fun heq => h (UInt64.toNat_inj.1 heq.symm)
  simp [get?, set, List.getElem?_set_ne hne]

/-- Storing what a slot already holds changes nothing. -/
theorem set_of_get? (h : inv.get? i = some r) : inv.set i r = inv := by
  obtain ⟨hlt, hget⟩ := List.getElem?_eq_some_iff.1 h
  have hset : inv.devices.set i.toNat r = inv.devices := by
    rw [← hget]
    exact List.set_getElem_self hlt
  rw [set, hset]

/-- A reading is stored over one of the same device, or nothing changes. -/
theorem updateSame_cases (inv : Inventory) (i : UInt64) (r : Reading) :
    (∃ old, inv.get? i = some old ∧ old.same r = true ∧ (inv.updateSame i r).2 = inv.set i r) ∨
      (inv.updateSame i r).2 = inv := by
  unfold updateSame
  split
  · rename_i old hold
    split
    · rename_i hsame
      exact Or.inl ⟨old, hold, hsame, rfl⟩
    · exact Or.inr rfl
  · exact Or.inr rfl

/-- After a slot was set it holds the new reading, and the others what they held. -/
theorem get?_of_set (h : (inv.set i r).get? j = some r') :
    j = i ∧ r' = r ∨ inv.get? j = some r' := by
  by_cases hj : j = i
  · subst hj
    have hlt : j.toNat < inv.devices.length := by simpa [set] using get?_lt h
    rw [get?_set_self (List.getElem?_eq_getElem hlt)] at h
    exact Or.inl ⟨rfl, (Option.some.inj h).symm⟩
  · rw [get?_set_of_ne hj] at h
    exact Or.inr h

/-- A slot is handed out with the reading in it and the generation. -/
theorem slot?_eq_some : inv.slot? i = some s ↔
    inv.get? i = some s.reading ∧ s.index = i ∧ s.generation = inv.generation := by
  constructor
  · intro h
    obtain ⟨r, hr, rfl⟩ := Option.map_eq_some_iff.1 h
    exact ⟨hr, rfl, rfl⟩
  · rintro ⟨hr, rfl, hg⟩
    rw [slot?, hr, Option.map_some, ← hg]

/-- A slot that has just been read takes the new reading. -/
theorem updateSlot_of_slot? (h : inv.slot? i = some s) :
    inv.updateSlot s r = (true, inv.set i r) := by
  obtain ⟨hr, rfl, hg⟩ := slot?_eq_some.1 h
  rw [updateSlot, if_pos ⟨hg, get?_lt hr⟩]

end GpuTelemetry.Inventory
