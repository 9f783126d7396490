import GpuTelemetry.Proofs.Registry.Isolation
import GpuTelemetry.Proofs.Source

namespace GpuTelemetry

namespace Registry

variable {β σ : Type} {vs ws : List Vendor} {u v : Vendor} {i : ℕ}

/-! ### The vendors listed -/

def NewAt (vs : List Vendor) (i : ℕ) : Prop :=
  ∃ v, vs[i]? = some v ∧ ∀ u ∈ vs.take i, u.same v = false

/-- `ws` are the vendors of `vs`, each identity once, in the order in which they first stand there. -/
structure Firsts (vs ws : List Vendor) : Prop where
  once : ws.Pairwise fun u v => u.same v = false
  complete : ∀ v ∈ vs, ∃ u ∈ ws, u.same v = true
  ordered : ∃ places : List ℕ, places.Pairwise (· < ·) ∧ ws.map some = places.map (vs[·]?) ∧
    ∀ i, i ∈ places ↔ NewAt vs i

theorem Firsts.mem (h : Firsts vs ws) (hv : v ∈ ws) : v ∈ vs := by
  obtain ⟨places, -, hvalues, -⟩ := h.ordered
  have hsome : some v ∈ places.map (vs[·]?) := hvalues ▸ List.mem_map_of_mem hv
  obtain ⟨i, -, hi⟩ := List.mem_map.1 hsome
  exact List.mem_of_getElem? hi

/-- A vendor is identical to one of the list if it is to one of those first listed. -/
theorem Firsts.any_same (h : Firsts vs ws) (v : Vendor) : ws.any (·.same v) = vs.any (·.same v) := by
  rw [Bool.eq_iff_iff, List.any_eq_true, List.any_eq_true]
  constructor
  · rintro ⟨u, hu, hsame⟩
    exact ⟨u, h.mem hu, hsame⟩
  · rintro ⟨u, hu, hsame⟩
    obtain ⟨u', hu', hsame'⟩ := h.complete u hu
    exact ⟨u', hu', Vendor.same_trans hsame' hsame⟩

/-- With one more vendor the new places are the old ones and perhaps the last. -/
theorem newAt_append_singleton : NewAt (vs ++ [v]) i ↔
    NewAt vs i ∨ i = vs.length ∧ vs.any (·.same v) = false := by
  rcases Nat.lt_trichotomy i vs.length with hlt | rfl | hgt
  · have htake : (vs ++ [v]).take i = vs.take i := List.take_append_of_le_length (Nat.le_of_lt hlt)
    have hne : i ≠ vs.length := Nat.ne_of_lt hlt
    simp only [NewAt, List.getElem?_append_left hlt, htake, hne, false_and, or_false]
  · simp [NewAt]
  · have hne : i ≠ vs.length := Nat.ne_of_gt hgt
    have hbehind : (vs ++ [v])[i]? = none := by
      apply List.getElem?_eq_none
      rw [List.length_append]
      exact hgt
    have hbehind' : vs[i]? = none := List.getElem?_eq_none (Nat.le_of_lt hgt)
    simp [NewAt, hbehind, hbehind', hne]

theorem NewAt.lt (h : NewAt vs i) : i < vs.length := by
  obtain ⟨v, hv, -⟩ := h
  exact (List.getElem?_eq_some_iff.1 hv).1

/-- The places are those of the same vendors when the list grows at its end. -/
theorem Firsts.places_append (h : Firsts vs ws) (v : Vendor) : ∃ places : List ℕ,
    places.Pairwise (· < ·) ∧ ws.map some = places.map ((vs ++ [v])[·]?) ∧
      ∀ i, i ∈ places ↔ NewAt vs i := by
  obtain ⟨places, hincreasing, hvalues, hplaces⟩ := h.ordered
  refine ⟨places, hincreasing, ?_, hplaces⟩
  rw [hvalues]
  apply List.map_congr_left
  intro i hi
  exact (List.getElem?_append_left ((hplaces i).1 hi).lt).symm

/-- A vendor that has been met adds nothing. -/
theorem Firsts.append_old (h : Firsts vs ws) (hold : ws.any (·.same v) = true) :
    Firsts (vs ++ [v]) ws := by
  obtain ⟨places, hincreasing, hvalues, hplaces⟩ := h.places_append v
  obtain ⟨u, hu, hsame⟩ := List.any_eq_true.1 hold
  refine ⟨h.once, ?_, places, hincreasing, hvalues, fun i => ?_⟩
  · rw [List.forall_mem_append, List.forall_mem_singleton]
    exact ⟨h.complete, u, hu, hsame⟩
  · rw [hplaces, newAt_append_singleton, ← h.any_same, hold]
    simp

/-- A vendor that has not been met is added behind the others. -/
theorem Firsts.append_new (h : Firsts vs ws) (hnew : ws.any (·.same v) = false) :
    Firsts (vs ++ [v]) (ws ++ [v]) := by
  obtain ⟨places, hincreasing, hvalues, hplaces⟩ := h.places_append v
  refine ⟨?_, ?_, places ++ [vs.length], ?_, ?_, fun i => ?_⟩
  · rw [List.pairwise_append]
    exact ⟨h.once, List.pairwise_singleton _ _, by simpa using hnew⟩
  · rw [List.forall_mem_append, List.forall_mem_singleton]
    refine ⟨fun u hu => ?_, v, by simp, Vendor.same_self v⟩
    obtain ⟨u', hu', hsame⟩ := h.complete u hu
    exact ⟨u', List.mem_append_left _ hu', hsame⟩
  · -- the last place comes behind all others
    have hlast : ∀ i ∈ places, i < vs.length := fun i hi => ((hplaces i).1 hi).lt
    rw [List.pairwise_append]
    exact ⟨hincreasing, List.pairwise_singleton _ _, by simpa using hlast⟩
  · simp [hvalues]
  · rw [newAt_append_singleton, List.mem_append, hplaces, ← h.any_same, hnew]
    simp

theorem distinct_append_singleton (seen : List Vendor) (vs : List Vendor) (v : Vendor) :
    distinct seen (vs ++ [v]) =
      if (distinct seen vs).any (·.same v) then distinct seen vs else distinct seen vs ++ [v] := by
  induction vs generalizing seen with
  | nil => rfl
  | cons u vs ih => exact ih _

/-- Each identity is listed once, where it is met first. -/
theorem firsts_distinct (vs : List Vendor) : Firsts vs (distinct [] vs) := by
  induction vs using List.reverseRecOn with
  | nil => exact ⟨.nil, nofun, [], .nil, rfl, by simp [NewAt]⟩
  | append_singleton vs v ih =>
    rw [distinct_append_singleton]
    split
    · rename_i hold
      exact ih.append_old hold
    · rename_i hnew
      exact ih.append_new (Bool.eq_false_iff.2 hnew)

/-! ### The registrations accepted -/

def acceptances (regs : List (Vendor × Option β)) : List (Registration β) :=
  regs.filterMap fun x => x.2.map (⟨x.1, ·⟩)

theorem entries_register (reg : Registry β) (v : Vendor) (b : Option β) :
    (reg.register v b).2.entries = reg.entries ++ acceptances [(v, b)] := by
  cases b with
  | none => exact (List.append_nil _).symm
  | some b => rfl

/-- The registrations are those that came with a backend. -/
theorem entries_registered (regs : List (Vendor × Option β)) :
    (registered regs).entries = acceptances regs := by
  induction regs using List.reverseRecOn with
  | nil => rfl
  | append_singleton regs x ih =>
    rw [registered, List.foldl_append, List.foldl_cons, List.foldl_nil, entries_register]
    rw [registered] at ih
    rw [ih, acceptances, acceptances, acceptances, List.filterMap_append]

theorem ofFamily_eq (reg : Registry β) (v : Vendor) :
    reg.ofFamily v = reg.entries.filter (·.vendor.family = v.family) := rfl

theorem supports_iff (reg : Registry β) (v : Vendor) :
    reg.supports v = true ↔ ∃ e ∈ reg.entries, e.vendor.family = v.family := by
  simp [supports, Vendor.sameFamily]

theorem supports_iff_ofFamily (reg : Registry β) (v : Vendor) :
    reg.supports v = true ↔ reg.ofFamily v ≠ [] := by
  simp [supports, ofFamily]

/-- The listed vendors are of the families of all that are registered. -/
theorem supports_iff_vendors (reg : Registry β) (v : Vendor) :
    reg.supports v = true ↔ ∃ u ∈ reg.vendors, u.family = v.family := by
  have hfirsts : Firsts (reg.entries.map (·.vendor)) reg.vendors := firsts_distinct _
  rw [supports_iff]
  constructor
  · rintro ⟨e, he, hfamily⟩
    obtain ⟨u, hu, hsame⟩ := hfirsts.complete e.vendor (List.mem_map_of_mem he)
    exact ⟨u, hu, (Vendor.family_of_same hsame).trans hfamily⟩
  · rintro ⟨u, hu, hfamily⟩
    obtain ⟨e, he, rfl⟩ := List.mem_map.1 (hfirsts.mem hu)
    exact ⟨e, he, hfamily⟩

variable [BackendCalls β (StateM σ)]

def sayNames (es : List (Registration β)) : StateM σ (List Text) :=
  es.mapM fun e => BackendCalls.name e.backend

theorem length_sayNames (es : List (Registration β)) (s : σ) :
    (sayNames es s).1.length = es.length := by
  induction es generalizing s with
  | nil => rfl
  | cons e es ih =>
    rw [sayNames, List.mapM_cons]
    exact congrArg (· + 1) (ih _)

/-- The names come from the backends of the family. -/
theorem run_names (reg : Registry β) (v : Vendor) (w : Shared β σ) :
    (reg.names v : Job (Shared β σ) (List Text)).run w =
      some ((sayNames (reg.ofFamily v) w.outside).1,
        { w with outside := (sayNames (reg.ofFamily v) w.outside).2 }) := by
  rw [names]
  -- backend by backend, each in the surroundings that the one before has left
  induction reg.ofFamily v generalizing w with
  | nil => rfl
  | cons e es ih =>
    let said := BackendCalls.name (m := StateM σ) e.backend w.outside
    let w' : Shared β σ := { w with outside := said.2 }
    calc (namesOf (e :: es) : Job (Shared β σ) (List Text)).run w
        = ((namesOf es : Job (Shared β σ) (List Text)).run w').bind
            fun p => some (said.1 :: p.1, p.2) :=
        Job.run_bind (namesOf es) (fun more => pure (said.1 :: more)) w'
      _ = some (said.1 :: (sayNames es said.2).1, { w with outside := (sayNames es said.2).2 }) := by
        rw [ih w']
        rfl
      _ = some ((sayNames (e :: es) w.outside).1,
            { w with outside := (sayNames (e :: es) w.outside).2 }) := by
        rw [sayNames, sayNames, List.mapM_cons]
        rfl

variable [Surroundings σ]

/-- A refresh lacks a backend if none is registered for the family. -/
theorem refresh_status (reg : Registry β) (r : Reading) (w : Shared β σ) :
    ∃ status fresh o,
      (reg.refresh r : Job (Shared β σ) (Status × Reading)).run w =
        some ((status, fresh), { w with outside := o }) ∧
      (status = .noBackend ↔ reg.ofFamily r.vendor = []) := by
  obtain ⟨_, o, _, hrun, _, found, ⟨failed, _, hasked⟩, rfl⟩ := watches_refresh reg r w []
  refine ⟨_, _, o, hrun, ?_⟩
  rcases hasked with ⟨b, a, hprefix, -, -, rfl⟩ | ⟨-, -, rfl⟩
  · have hne : reg.ofFamily r.vendor ≠ [] := by
      intro hnil
      rw [hnil] at hprefix
      simp at hprefix
    exact iff_of_false nofun hne
  · cases h : reg.ofFamily r.vendor <;> simp

/-- **A registry tells what it does.** However backends were registered, a vendor is supported exactly if a
backend tells its name for it, if a vendor of its family is listed and if a refresh does not end for want of
a backend. The names are those of the accepted registrations of the family, in order. The vendors listed
are those of the accepted registrations, each identity once, in order of first registration, and the size
is how many were accepted; without a backend nothing is. -/
theorem tells_what_it_does (regs : List (Vendor × Option β)) (w : Shared β σ) :
    (∀ v, ∃ told o, ((registered regs).names v : Job (Shared β σ) (List Text)).run w =
        some (told, { w with outside := o }) ∧
      sayNames ((acceptances regs).filter (·.vendor.family = v.family)) w.outside = (told, o) ∧
      ((registered regs).supports v = true ↔ told ≠ []) ∧
      ((registered regs).supports v = true ↔ ∃ u ∈ (registered regs).vendors, u.family = v.family)) ∧
    (∀ r, ∃ status fresh o,
      ((registered regs).refresh r : Job (Shared β σ) (Status × Reading)).run w =
        some ((status, fresh), { w with outside := o }) ∧
      ((registered regs).supports r.vendor = true ↔ status ≠ .noBackend)) ∧
    Firsts ((acceptances regs).map (·.vendor)) (registered regs).vendors ∧
    (registered regs).size = (acceptances regs).length ∧
    (∀ v, (registered regs).register v none = (.invalidArgument, registered regs)) ∧
    ∀ v b, ((registered regs).register v (some b)).1 = .ok := by
  refine ⟨fun v => ⟨_, _, run_names _ v w, ?_, ?_, supports_iff_vendors _ v⟩, fun r => ?_, ?_, ?_,
    fun _ => rfl, fun _ _ => rfl⟩
  · rw [ofFamily_eq, entries_registered]
    rfl
  · -- a name is said for each backend of the family
    rw [supports_iff_ofFamily, ← List.length_pos_iff, ← List.length_pos_iff, length_sayNames]
  · obtain ⟨status, fresh, o, hrun, hstatus⟩ := refresh_status (registered regs) r w
    refine ⟨status, fresh, o, hrun, ?_⟩
    rw [supports_iff_ofFamily, ne_eq, ne_eq, hstatus]
  · rw [← entries_registered]
    exact firsts_distinct _
  · rw [← entries_registered]
    rfl

/-- Both kinds of Intel graphics are listed, an NVIDIA device only once, and AMD without a backend not. -/
example : (registered [(.intel .discrete, some 'a'), (.amd, none), (.nvidia, some 'b'),
    (⟨.nvidia, .discrete⟩, some 'c'), (.intel .integrated, some 'd')]).vendors =
      [.intel .discrete, .nvidia, .intel .integrated] := by decide

end Registry

end GpuTelemetry
