import GpuTelemetry.Cache.Basic

namespace GpuTelemetry.Cache

namespace Entries

variable {es : Entries} {k j : Key} {e : Entry}

theorem find?_cons (p : Key × Entry) :
    find? (p :: es) k = if p.1 = k then some p.2 else find? es k := by
  by_cases h : p.1 = k <;> simp [find?, h]

theorem find?_eq_none : find? es k = none ↔ ∀ p ∈ es, p.1 ≠ k := by
  simp [find?, List.find?_eq_none]

theorem mem_of_find? (h : find? es k = some e) : (k, e) ∈ es := by
  obtain ⟨p, hp, rfl⟩ := Option.map_eq_some_iff.1 h
  have hk : p.1 = k := by simpa using List.find?_some hp
  exact hk ▸ List.mem_of_find?_eq_some hp

theorem find?_erase : find? (erase es k) j = if j = k then none else find? es j := by
  induction es with
  | nil => simp [find?, erase]
  | cons p es ih =>
    by_cases hp : p.1 = k
    · rw [show erase (p :: es) k = erase es k by simp [erase, hp], ih, find?_cons, hp]
      by_cases hj : j = k
      · simp [hj]
      · simp [hj, Ne.symm hj]
    · rw [show erase (p :: es) k = p :: erase es k by simp [erase, hp], find?_cons, ih, find?_cons]
      by_cases hj : j = k
      · simp [hj, hp]
      · simp [hj]

theorem find?_replace :
    find? (replace es k e) j = if j = k then (find? es k).map (fun _ => e) else find? es j := by
  induction es with
  | nil => simp [find?, replace]
  | cons p es ih =>
    have hcons : replace (p :: es) k e = (if p.1 = k then (k, e) else p) :: replace es k e := by
      simp [replace]
    rw [hcons, find?_cons, ih, find?_cons, find?_cons]
    by_cases hp : p.1 = k <;> by_cases hj : j = k
    · simp [hp, hj]
    · simp [hp, hj, Ne.symm hj]
    · simp [hp, hj]
    · simp [hp, hj]

theorem find?_replace_self (h : (find? es k).isSome) : find? (replace es k e) k = some e := by
  obtain ⟨f, hf⟩ := Option.isSome_iff_exists.1 h
  simp [find?_replace, hf]

theorem makeRoom_of_lt {bound : Nat} (h : es.length < bound) : makeRoom bound es = es := by
  rw [makeRoom, if_neg (Nat.not_le.2 h)]

theorem makeRoom_of_victim? {bound : Nat} {v : Key × Entry} (h : bound ≤ es.length)
    (hv : es.victim? = some v) : makeRoom bound es = makeRoom bound (erase es v.1) := by
  rw [makeRoom, if_pos h]
  split
  · simp_all
  · rename_i w hw
    cases hv.symm.trans hw
    rfl

theorem makeRoom_of_empty {bound : Nat} (h : es.victim? = none) : makeRoom bound es = es := by
  rw [makeRoom]
  split
  · split <;> simp_all
  · rfl

/-- Giving entries up leaves the others as they were. -/
theorem find?_makeRoom (bound : Nat) (h : find? (makeRoom bound es) k = some e) :
    find? es k = some e := by
  induction es using makeRoom.induct bound with
  | case1 es _ hv => rwa [makeRoom_of_empty hv] at h
  | case2 es hfull v hv hlt ih =>
    rw [makeRoom_of_victim? hfull hv] at h
    have hk := ih h
    rw [find?_erase] at hk
    -- the key that was given up is not found again
    by_cases hkv : k = v.1
    · simp [hkv] at hk
    · simpa [hkv] using hk
  | case3 es hroom => rwa [makeRoom_of_lt (Nat.not_le.1 hroom)] at h

end Entries

def item? (c : Cache) (k : Key) : Option Entry := Entries.find? c.entries k

variable {c : Cache} {k j : Key} {e : Entry} {now : Instant} {r : Reading}

theorem contains_eq : c.contains k = (c.item? k).isSome := rfl

@[simp] theorem item?_new (policy : Policy) : (new policy).item? k = none := rfl

@[simp] theorem item?_clear : c.clear.item? k = none := rfl

theorem item?_invalidate : (c.invalidate k).item? j = if j = k then none else c.item? j :=
  Entries.find?_erase

/-- Dropping what is not held changes nothing. -/
theorem invalidate_of_absent (h : c.item? k = none) : c.invalidate k = c := by
  have hkeep : Entries.erase c.entries k = c.entries :=
    List.filter_eq_self.2 fun p hp => by simpa using Entries.find?_eq_none.1 h p hp
  rw [invalidate, hkeep]

theorem get_of_absent (h : c.item? k = none) : c.get now k = (none, c) := by
  unfold item? at h
  simp [get, h]

/-- A fresh entry answers, and the hit is recorded. -/
theorem get_of_fresh (h : c.item? k = some e) (hf : e.isFresh now c.policy.ttl = true) :
    c.get now k =
      (some e.snapshot, { c with entries := Entries.replace c.entries k (e.touch now) }) := by
  unfold item? at h
  simp [get, h, hf]

/-- An expired entry counts as absent and is dropped. -/
theorem get_of_expired (h : c.item? k = some e) (hf : e.isFresh now c.policy.ttl = false) :
    c.get now k = (none, c.invalidate k) := by
  unfold item? at h
  simp [get, h, hf, invalidate]

/-- A look-up finds what is held and fresh. -/
theorem get_eq (c : Cache) (now : Instant) (k : Key) :
    (c.get now k).1 = ((c.item? k).filter (·.isFresh now c.policy.ttl)).map (·.snapshot) := by
  cases h : c.item? k with
  | none => rw [get_of_absent h]; rfl
  | some e =>
    cases hf : e.isFresh now c.policy.ttl with
    | true => simp [get_of_fresh h hf, Option.filter, hf]
    | false => simp [get_of_expired h hf, Option.filter, hf]

/-- A look-up counts one access more of what it finds, and removes what has expired. -/
theorem item?_get : (c.get now k).2.item? j =
    if j = k then ((c.item? k).filter (·.isFresh now c.policy.ttl)).map (·.touch now)
    else c.item? j := by
  cases h : c.item? k with
  | none =>
    rw [get_of_absent h]
    by_cases hj : j = k <;> simp [hj, h]
  | some e =>
    cases hf : e.isFresh now c.policy.ttl with
    | true =>
      rw [get_of_fresh h hf]
      unfold item? at h
      simp [item?, Entries.find?_replace, h, Option.filter, hf]
    | false => simp [get_of_expired h hf, item?_invalidate, Option.filter, hf]

theorem put_of_no_room (h : c.policy.maxEntries = some 0) : c.put now k r = c := by
  simp [put, h]

/-- A cache that may hold anything holds what was stored last. -/
theorem item?_put_self (h : c.policy.maxEntries ≠ some 0) :
    (c.put now k r).item? k = some (.new r now c.nextSequence) := by
  unfold put item?
  rw [if_neg h]
  by_cases hk : (Entries.find? c.entries k).isSome
  · simp only [hk, if_true]
    exact Entries.find?_replace_self hk
  · simp [hk, Entries.find?_cons]

/-- A key that is held is replaced in place. -/
theorem item?_put_of_held (h : c.contains k) (hj : j ≠ k) :
    (c.put now k r).item? j = c.item? j := by
  unfold put item?
  split
  · rfl
  · have hk : (Entries.find? c.entries k).isSome := h
    simp [hk, Entries.find?_replace, hj]

/-- Storing under one key adds nothing under another. -/
theorem item?_of_put (hj : j ≠ k) (h : (c.put now k r).item? j = some e) : c.item? j = some e := by
  by_cases hz : c.policy.maxEntries = some 0
  · rwa [put_of_no_room hz] at h
  by_cases hk : c.contains k
  · rwa [item?_put_of_held hk hj] at h
  have hk' : (Entries.find? c.entries k).isSome = false := by simpa [contains] using hk
  cases hm : c.policy.maxEntries with
  | none => simpa [put, item?, hm, hk', Entries.find?_cons, Ne.symm hj] using h
  | some n =>
    have hn : n ≠ 0 := by simpa [hm] using hz
    exact Entries.find?_makeRoom n.toNat
      (by simpa [put, item?, hm, hn, hk', Entries.find?_cons, Ne.symm hj] using h)

/-- Without a bound nothing is given up. -/
theorem item?_put_of_unbounded (h : c.policy.maxEntries = none) (hj : j ≠ k) :
    (c.put now k r).item? j = c.item? j := by
  unfold put item?
  rw [if_neg (by simp [h])]
  split
  · simp [Entries.find?_replace, hj]
  · simp [h, Entries.find?_cons, Ne.symm hj]

/-- When what is held under a key was stored, and what it is. -/
def held? (c : Cache) (k : Key) : Option (Instant × Reading) :=
  (c.item? k).map fun e => (e.createdAt, e.snapshot)

theorem item?_of_not_held (h : c.held? k = none) : c.item? k = none := Option.map_eq_none_iff.1 h

variable {t₀ : Instant} {s : Reading}

@[simp] theorem held?_clear : c.clear.held? k = none := rfl

theorem held?_put_self (h : c.policy.maxEntries ≠ some 0) :
    (c.put now k r).held? k = some (now, r) := by
  simp [held?, item?_put_self h, Entry.new]

/-- Under other keys nothing comes to be held. -/
theorem held?_of_put (hj : j ≠ k) (h : (c.put now k r).held? j = some (t₀, s)) :
    c.held? j = some (t₀, s) := by
  obtain ⟨e, he, hx⟩ := Option.map_eq_some_iff.1 h
  have hold := item?_of_put hj he
  simp [held?, hold, hx]

/-- A look-up adds nothing, and a hit changes neither the snapshot nor its age. -/
theorem held?_of_get (h : (c.get now k).2.held? j = some (t₀, s)) : c.held? j = some (t₀, s) := by
  simp only [held?, item?_get] at h
  split at h
  · rename_i hj
    subst hj
    cases he : c.item? j with
    | none => simp [he] at h
    | some e =>
      by_cases hf : e.isFresh now c.policy.ttl
      · simpa [held?, he, Option.filter, hf, Entry.touch] using h
      · simp [he, Option.filter, hf] at h
  · exact h

theorem held?_invalidate : (c.invalidate k).held? j = if j = k then none else c.held? j := by
  rw [held?, item?_invalidate]
  split
  · rfl
  · rfl

theorem held?_of_invalidate (h : (c.invalidate k).held? j = some (t₀, s)) :
    j ≠ k ∧ c.held? j = some (t₀, s) := by
  rw [held?_invalidate] at h
  split at h
  · cases h
  · exact ⟨‹_›, h⟩

@[simp] theorem policy_get : (c.get now k).2.policy = c.policy := by
  unfold get
  split
  · rfl
  · split <;> rfl

@[simp] theorem policy_put : (c.put now k r).policy = c.policy := by
  unfold put
  split
  · rfl
  · dsimp only
    split <;> rfl

@[simp] theorem policy_invalidate : (c.invalidate k).policy = c.policy := rfl

@[simp] theorem policy_clear : c.clear.policy = c.policy := rfl

end GpuTelemetry.Cache
