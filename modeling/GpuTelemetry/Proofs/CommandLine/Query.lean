import GpuTelemetry.CommandLine.Tool
import GpuTelemetry.Proofs.Monitor.Background

namespace GpuTelemetry.CommandLine

open Job (Ends ends_pure ends_bind)
open Shared (Yields)
open Monitor (Turn Fanned RenewedAt answerAt detected fanout fanned_start)

variable {β σ : Type} [BackendCalls β (Job (Shared β σ))] [Surroundings σ] {reg : Registry β}
  {found : List Reading} {f : Reading → Status × Reading} {start : Inventory} {is : List UInt64}
  {w : Shared β σ} {o : BackgroundOptions} {target : Option UInt64}

/-! ### One after the other -/

def turnsUpTo (n : ℕ) (id : ℕ) : Turn := if id < n then .answered else .starts

theorem not_locked_upTo (n id : ℕ) : ¬ (turnsUpTo n id).Locked := by
  unfold turnsUpTo
  split
  · simp [Turn.Locked]
  · simp [Turn.Locked]

theorem update_turnsUpTo (n : ℕ) :
    Function.update (turnsUpTo n) n .answered = turnsUpTo (n + 1) := by
  funext id
  by_cases hid : id = n
  · rw [hid, Function.update_self, turnsUpTo, if_pos (Nat.lt_succ_self n)]
  · rw [Function.update_of_ne hid, turnsUpTo, turnsUpTo]
    refine if_congr ?_ rfl rfl
    omega

section Queries

variable (hnodup : is.Nodup)
  (hdetect : Yields found (reg.detectAll : Job (Shared β σ) (List Reading)))
  (hrefresh : ∀ r, Yields (f r) (reg.refresh r : Job (Shared β σ) (Status × Reading)))

include hnodup hdetect hrefresh

/-- A query that runs alone comes to the same end as one among others. -/
theorem ends_query {n : ℕ} {i : UInt64} (hid : is[n]? = some i)
    (h : Fanned reg found f start is none (turnsUpTo n) w) :
    Ends (Monitor.cached i) w fun a w' => a = answerAt f (detected found start) i ∧
      Fanned reg found f start is none (turnsUpTo (n + 1)) w' := by
  have hstarts : turnsUpTo n n = .starts := if_neg (Nat.lt_irrefl n)
  have habides : Job.Abides (fanout reg found f start is) n
      (Monitor.cached i : Job (Shared β σ) Answer) .starts _ :=
    Monitor.abides_cached hnodup hid hdetect hrefresh
  refine (habides.ends ⟨none, h⟩ hstarts fun turns v hholds hsame hwaits => ?_).mono ?_
  -- nobody else has the lock, so there is nothing to wait for
  · obtain ⟨holder, hfanned⟩ := hholds
    obtain ⟨hturn, hlocked⟩ := hwaits
    rw [hfanned.detecting] at hlocked
    obtain ⟨j, hj⟩ := Option.isSome_iff_exists.1 hlocked
    have hholds := (hfanned.lock j).2 hj
    by_cases hjn : j = n
    · rw [hjn, hturn] at hholds
      simp [Turn.Locked] at hholds
    · rw [hsame j hjn] at hholds
      exact not_locked_upTo n j hholds
  · intro a w' hw'
    obtain ⟨t, ⟨rfl, ha⟩, holder, hfanned⟩ := hw'
    rw [update_turnsUpTo] at hfanned
    refine ⟨ha, ?_⟩
    cases holder with
    | none => exact hfanned
    | some j => exact absurd ((hfanned.lock j).2 rfl) (not_locked_upTo _ j)

/-- One after the other, the queries that remain give the answers of their slots. -/
theorem queryInOrder_eq (before rest : List UInt64) (his : is = before ++ rest)
    (h : Fanned reg found f start is none (turnsUpTo before.length) w) :
    ∃ w', queryInOrder rest w = some (rest.map (answerAt f (detected found start)), w') ∧
      Fanned reg found f start is none (turnsUpTo is.length) w' := by
  -- on the queries that remain: those before them have been answered, and nobody has the lock
  induction rest generalizing before w with
  | nil =>
    rw [List.append_nil] at his
    exact ⟨w, rfl, his ▸ h⟩
  | cons i rest ih =>
    have hid : is[before.length]? = some i := by simp [his]
    obtain ⟨a, w₁, hrun, rfl, hfanned⟩ := ends_query hnodup hdetect hrefresh hid h
    obtain ⟨w', hrest, hend⟩ := ih (before ++ [i]) (by simp [his]) (by simpa using hfanned)
    refine ⟨w', ?_, hend⟩
    change ((Monitor.cached i : Job (Shared β σ) Answer).run w).bind (fun x =>
      (queryInOrder rest x.2).bind fun y => some (x.1 :: y.1, y.2)) = _
    rw [hrun, Option.bind_some, hrest]
    rfl

end Queries

/-! ### All devices, or one -/

/-- The tool goes through the devices asked for. -/
theorem queryDevices_inOrder {pace : Pace β σ} {w₁ : Shared β σ}
    (h : indices target w = some (is, w₁)) : queryDevices pace o false target w =
      (queryInOrder is w₁).map fun x => (is.zipWith Queried.mk x.1, x.2) := by
  change (indices target w).bind (fun x => (queryInOrder x.1 x.2).bind fun y =>
    some (x.1.zipWith Queried.mk y.1, y.2)) = _
  rw [h, Option.map_eq_bind]
  rfl

/-- In the background the tool hands a query for each device to a crew. -/
theorem queryDevices_background {pace : Pace β σ} {w₁ : Shared β σ}
    (h : indices target w = some (is, w₁)) : queryDevices pace o true target w =
      (Monitor.inBackground pace.pick pace.fuel o (is.map fun i => Monitor.cached i) w₁).map
        fun x => (is.zipWith Queried.mk x.1, x.2) := by
  change (indices target w).bind (fun x =>
    (Monitor.inBackground pace.pick pace.fuel o (x.1.map fun i => Monitor.cached i) x.2).bind
      fun y => some (x.1.zipWith Queried.mk y.1, y.2)) = _
  rw [h, Option.map_eq_bind]
  rfl

section Devices

variable (hreg : w.monitor.registry = reg) (hfree : w.detecting = false)
  (hempty : ∀ k, w.monitor.cache.item? k = none)
  (hdetect : Yields found (reg.detectAll : Job (Shared β σ) (List Reading)))
  (hsize : (detected found w.monitor.inventory).size < UInt64.size)

include hreg hfree hempty hdetect hsize

/-- Different devices are queried, each before any of them has been answered. -/
theorem ends_indices (target : Option UInt64) : ∃ is w₁, indices target w = some (is, w₁) ∧
    is.Nodup ∧ (is ≠ [] ∨ w₁.monitor.inventory.initialized = true) ∧
    detected found w₁.monitor.inventory = detected found w.monitor.inventory ∧
    Fanned reg found f w₁.monitor.inventory is none (fun _ => .starts) w₁ := by
  cases target with
  | some i => exact ⟨[i], w, rfl, List.nodup_singleton i, Or.inl (by simp), rfl,
      fanned_start hreg hfree hempty⟩
  | none =>
    -- to count the devices is to detect them, so the count is the size of what the queries will find
    have hcount : Ends (Monitor.count : Job (Shared β σ) ℕ) w fun n w₁ =>
        n = (detected found w.monitor.inventory).size ∧
          w₁.monitor.inventory = detected found w.monitor.inventory ∧
          w₁.monitor.registry = reg ∧ w₁.detecting = false ∧
          w₁.monitor.cache = w.monitor.cache := by
      refine ends_bind (Monitor.ends_ensureDetected hfree (fun hi => ?_) fun hi => ?_)
      · rw [Monitor.detected_of_initialized hi]
        exact ⟨_, _, rfl, rfl, rfl, hreg, hfree, rfl⟩
      · rw [hreg]
        refine (hdetect.outside _).mono fun found' v h => ?_
        obtain ⟨rfl, o, rfl⟩ := h
        have hfirst : detected found' w.monitor.inventory = w.monitor.inventory.replace found' := by
          rw [detected, hi, if_neg Bool.false_ne_true]
        rw [hfirst]
        exact ⟨_, _, rfl, rfl, rfl, hreg, rfl, rfl⟩
    obtain ⟨n, w₁, hrun, hn, hinv, hreg₁, hfree₁, hcache⟩ := hcount
    refine ⟨(List.range n).map Nat.toUInt64, w₁, ?_, ?_, ?_, ?_, ?_⟩
    · change ((Monitor.count : Job (Shared β σ) ℕ).run w).bind (fun x =>
        some ((List.range x.1).map Nat.toUInt64, x.2)) = _
      rw [hrun]
      rfl
    -- the count fits a word, so no two numbers below it are the same index
    · refine List.nodup_range.map_on fun a ha b hb hab => ?_
      have hword := congrArg UInt64.toNat hab
      have hlt {a : ℕ} (ha : a ∈ List.range n) : a < UInt64.size :=
        Nat.lt_trans (List.mem_range.1 ha) (hn ▸ hsize)
      rwa [Monitor.toNat_of_lt (hlt ha), Monitor.toNat_of_lt (hlt hb)] at hword
    · rw [hinv]
      exact Or.inr (Monitor.detected_initialized found _)
    · rw [hinv]
      exact Monitor.detected_of_initialized (Monitor.detected_initialized found _)
    · exact fanned_start hreg₁ hfree₁ fun k => hcache ▸ hempty k

variable (hrefresh : ∀ r, Yields (f r) (reg.refresh r : Job (Shared β σ) (Status × Reading)))

include hrefresh

/-- Asked for at once, on any number of workers and however they move, the devices give the answers that
they give one after the other, in the same order, and leave the same collection. A dispatcher that lets
somebody move while somebody can comes to an end; and in no history of a crew with these queries is
there another result, nor, once nobody can move, one result less or another collection. -/
theorem queryDevices_background_eq_inOrder (ho : o.timeout = none) (target : Option UInt64) :
    ∃ is w₁ as w', indices target w = some (is, w₁) ∧
      (∀ pace, queryDevices pace o false target w = some (is.zipWith Queried.mk as, w')) ∧
      (∀ pace qs w'', queryDevices pace o true target w = some (qs, w'') →
        qs = is.zipWith Queried.mk as ∧ w''.monitor.inventory = w'.monitor.inventory) ∧
      (∀ pick, Crew.Tireless pick → ∃ n, ∀ fuel, n ≤ fuel →
        ∃ x, queryDevices { pick, fuel } o true target w = some x) ∧
      ∀ threads acts, Monitor.Asked acts threads w₁ is →
        (∀ id a, (Crew.after threads w₁ acts).result? id = some a → as[id]? = some a) ∧
        ((Crew.after threads w₁ acts).Stuck →
          (∀ id, (Crew.after threads w₁ acts).result? id = as[id]?) ∧
          (Crew.after threads w₁ acts).shared.monitor.inventory = w'.monitor.inventory) := by
  obtain ⟨is, w₁, hindices, hnodup, hsome, hbase, hstart⟩ :=
    ends_indices hreg hfree hempty hdetect hsize target
  obtain ⟨w', hrun, hend⟩ := queryInOrder_eq hnodup hdetect hrefresh [] is rfl hstart
  -- either way the devices asked for are renewed and no others, and one collection alone is so
  have hinv : RenewedAt f (detected found w₁.monitor.inventory) (· ∈ is) w'.monitor.inventory :=
    hend.finished (fun id hlt => if_pos hlt) hsome
  have hunique {inv : Inventory}
      (h : RenewedAt f (detected found w₁.monitor.inventory) (· ∈ is) inv) :
      inv = w'.monitor.inventory := h.unique hinv (hbase ▸ hsize)
  refine ⟨is, w₁, is.map (answerAt f (detected found w₁.monitor.inventory)), w', hindices,
    fun pace => ?_, fun pace qs w'' hqs => ?_, fun pick hpick => ?_, fun threads acts hasked => ?_⟩
  · rw [queryDevices_inOrder hindices, hrun]
    rfl
  · rw [queryDevices_background hindices] at hqs
    obtain ⟨⟨as, v⟩, hbackground, heq⟩ := Option.map_eq_some_iff.1 hqs
    cases heq
    obtain ⟨rfl, hinv'⟩ :=
      Monitor.answers_of_inBackground hnodup hdetect hrefresh hstart ho hsome hbackground
    exact ⟨rfl, hunique hinv'⟩
  · obtain ⟨n, hn⟩ := Monitor.inBackground_of_tireless hnodup hdetect hrefresh hstart ho hpick
    refine ⟨n, fun fuel hfuel => ?_⟩
    obtain ⟨x, hx⟩ := hn fuel hfuel
    rw [queryDevices_background hindices, hx]
    exact ⟨_, rfl⟩
  -- what a query answers has no regard to how far the others are
  · have hresult (id : ℕ) (a : Answer) (ha : (Crew.after threads w₁ acts).result? id = some a) :
        (is.map (answerAt f (detected found w₁.monitor.inventory)))[id]? = some a := by
      have hlt : id < is.length := hasked.next ▸ Crew.lt_next_of_result? ha
      have hid := List.getElem?_eq_getElem hlt
      rw [List.getElem?_map, hid, Option.map_some]
      exact congrArg some (hasked.result hnodup hdetect hrefresh hstart hid ha).symm
    refine ⟨hresult, fun hstuck => ?_⟩
    obtain ⟨hqueue, hway, _, hall⟩ := hasked.done hnodup hdetect hrefresh hstart hstuck
    refine ⟨fun id => ?_, hunique (hasked.finished hnodup hdetect hrefresh hstart hsome hqueue hway)⟩
    by_cases hlt : id < is.length
    · obtain ⟨a, ha⟩ := hall id hlt
      rw [ha, hresult id a ha]
    · have hnone : (Crew.after threads w₁ acts).result? id = none := by
        refine Option.eq_none_iff_forall_ne_some.2 fun a ha => hlt ?_
        exact hasked.next ▸ Crew.lt_next_of_result? ha
      rw [hnone, List.getElem?_eq_none (by simpa using Nat.le_of_not_lt hlt)]

end Devices

/-- Three devices, of which one cannot be read again and one changes its name, on four workers. -/
theorem queryDevices_background_eq_inOrder_of_exchanged :
    ({ threads := 4 } : BackgroundOptions).timeout = none ∧
    ∃ is w₁ as w', indices none Monitor.watching = some (is, w₁) ∧
      (∀ pace, queryDevices pace { threads := 4 } false none Monitor.watching =
        some (is.zipWith Queried.mk as, w')) ∧
      (∀ pace qs w'', queryDevices pace { threads := 4 } true none Monitor.watching =
        some (qs, w'') →
          qs = is.zipWith Queried.mk as ∧ w''.monitor.inventory = w'.monitor.inventory) ∧
      (∀ pick, Crew.Tireless pick → ∃ n, ∀ fuel, n ≤ fuel →
        ∃ x, queryDevices { pick, fuel } { threads := 4 } true none Monitor.watching = some x) ∧
      ∀ threads acts, Monitor.Asked acts threads w₁ is →
        (∀ id a, (Crew.after threads w₁ acts).result? id = some a → as[id]? = some a) ∧
        ((Crew.after threads w₁ acts).Stuck →
          (∀ id, (Crew.after threads w₁ acts).result? id = as[id]?) ∧
          (Crew.after threads w₁ acts).shared.monitor.inventory = w'.monitor.inventory) :=
  ⟨rfl, queryDevices_background_eq_inOrder (w := Monitor.watching)
    (f := Monitor.ruledRefresh .amd Monitor.exchanging) rfl rfl (fun _ => rfl)
    (Monitor.yields_detectAll_ruled .amd (by decide)) (by decide)
    (Monitor.yields_refresh_ruled .amd Monitor.exchanging) rfl none⟩

end GpuTelemetry.CommandLine
