import GpuTelemetry.Monitor.Background
import GpuTelemetry.Proofs.Job.Settled
import GpuTelemetry.Proofs.Monitor.Fanout

namespace GpuTelemetry.Monitor

open GpuTelemetry.Crew (Act after accepted moves settle underWay Stuck Tireless)
open Shared (Yields)

section Collect

variable {β σ : Type} [Surroundings σ] {pick : Crew.Dispatcher (Shared β σ) Answer} {fuel : ℕ}
  {c c' : Crew (Shared β σ) Answer} {ids : List ℕ} {as : List Answer}

/-- Without a bound on the wait a ticket gives the result of the job or nothing. -/
theorem collect_unbounded (id : ℕ) : collect pick fuel none id c =
    ((settle pick fuel c).result? id).map fun a => (a, settle pick fuel c) := by
  unfold collect
  cases h : (settle pick fuel c).result? id with
  | none => simp [h, Ticket.get]
  | some a => simp [h, Ticket.get, Ticket.complete, Channel.complete, Ticket.getNotices, reportBeside]

/-- Answers that are collected are results of the jobs, at some time or other. -/
theorem results_of_collectAll (h : collectAll pick fuel none ids c = some (as, c')) :
    (∃ schedule, c' = moves schedule c) ∧
      List.Forall₂ (fun id a => ∃ schedule, (moves schedule c).result? id = some a) ids as := by
  induction ids generalizing c as with
  | nil =>
    cases h
    exact ⟨⟨[], rfl⟩, .nil⟩
  | cons id ids ih =>
    rw [collectAll, collect_unbounded] at h
    obtain ⟨⟨a, c₁⟩, hfirst, h⟩ := Option.bind_eq_some_iff.1 h
    obtain ⟨a', hresult, heq⟩ := Option.map_eq_some_iff.1 hfirst
    cases heq
    obtain ⟨⟨rest, c₂⟩, hrest, h⟩ := Option.bind_eq_some_iff.1 h
    cases h
    obtain ⟨schedule, hsettle⟩ := Crew.settle_eq_moves pick fuel c
    obtain ⟨⟨schedule', hc'⟩, hall⟩ := ih hrest
    -- a result that is there after some moves is one of the jobs after those moves
    have happend (s : List ℕ) : moves s (settle pick fuel c) = moves (schedule ++ s) c := by
      rw [hsettle, moves, moves, moves, List.foldl_append]
    refine ⟨⟨schedule ++ schedule', by rw [hc', happend]⟩, .cons ⟨schedule, ?_⟩ ?_⟩
    · rw [← hsettle]
      exact hresult
    · refine hall.imp fun id a h => ?_
      obtain ⟨s, hs⟩ := h
      exact ⟨schedule ++ s, by rw [← happend, hs]⟩

/-- Where settling brings all results, all answers are collected. -/
theorem collectAll_of_settled (hpick : Tireless pick) (hsettle : settle pick fuel c = c')
    (hstuck : c'.Stuck) (hresults : ∀ id ∈ ids, ∃ a, c'.result? id = some a) :
    ∃ as c'', collectAll pick fuel none ids c = some (as, c'') ∧ (c'' = c ∨ c'' = c') := by
  induction ids generalizing c with
  | nil => exact ⟨[], c, rfl, Or.inl rfl⟩
  | cons id ids ih =>
    obtain ⟨a, ha⟩ := hresults id List.mem_cons_self
    obtain ⟨as, c'', hrest, hc''⟩ := ih (Crew.settle_of_stuck hpick hstuck fuel)
      fun id hid => hresults id (List.mem_cons_of_mem _ hid)
    refine ⟨a :: as, c'', ?_, Or.inr (or_self_iff.1 hc'')⟩
    rw [collectAll, collect_unbounded, hsettle, ha]
    simp [hrest]

end Collect

/-! ### A crew of queries -/

section Crew

variable {β σ : Type} [BackendCalls β (Job (Shared β σ))] [Surroundings σ] {reg : Registry β}
  {found : List Reading} {f : Reading → Status × Reading} {start : Inventory} {is : List UInt64}
  {w : Shared β σ} {holder : Option ℕ} {turns : ℕ → Turn} {threads : ℕ}
  {acts : List (Act (Shared β σ) Answer)}

omit [BackendCalls β (Job (Shared β σ))] [Surroundings σ] in
/-- Nothing has been asked yet. -/
theorem fanned_start (hreg : w.monitor.registry = reg) (hfree : w.detecting = false)
    (hempty : ∀ k, w.monitor.cache.item? k = none) :
    Fanned reg found f w.monitor.inventory is none (fun _ => .starts) w := by
  refine ⟨hreg, hfree, fun id => ?_, fun id => trivial, fun _ => rfl, fun hi => ?_, fun k e he => ?_⟩
  · exact iff_of_false (by simp [Turn.Locked]) nofun
  · rw [detected_of_initialized hi]
    exact renewedAt_self fun i hi => by
      obtain ⟨_, _, hanswered⟩ := hi
      cases hanswered
  · rw [hempty k] at he
    cases he

omit [BackendCalls β (Job (Shared β σ))] [Surroundings σ] in
/-- Once all have been answered, the devices asked for have been read again, and no others. -/
theorem Fanned.finished (h : Fanned reg found f start is holder turns w)
    (hall : ∀ id, id < is.length → turns id = .answered) (hsome : is ≠ [] ∨ start.initialized = true) :
    RenewedAt f (detected found start) (· ∈ is) w.monitor.inventory := by
  have hanswered (i : UInt64) : i ∈ is ↔ Answered is turns i := by
    rw [List.mem_iff_getElem?]
    refine exists_congr fun id => ⟨fun hid => ⟨hid, hall id ?_⟩, And.left⟩
    exact (List.getElem?_eq_some_iff.1 hid).1
  -- a query that is answered has seen a detection, and without queries there was one before
  have hinit : w.monitor.inventory.initialized = true := by
    by_contra hno
    have hno' : w.monitor.inventory.initialized = false := by simpa using hno
    rcases hsome with hne | hstart
    · have hfits := h.fits 0
      rw [hall 0 (List.length_pos_iff.2 hne)] at hfits
      exact hno hfits
    · rw [h.blank hno', hstart] at hno
      exact hno rfl
  exact (h.collection hinit).congr hanswered

def Finished (f : Reading → Status × Reading) (base : Inventory) (is : List UInt64) (id : ℕ)
    (a : Answer) (t : Turn) : Prop := t = .answered ∧ ∀ i, is[id]? = some i → a = answerAt f base i

omit [BackendCalls β (Job (Shared β σ))] [Surroundings σ] in
/-- Who waits for the lock waits for the query that has it, which is neither new nor answered. -/
theorem waits_for_holder {base : Inventory} (turns : ℕ → Turn) (w : Shared β σ) (id : ℕ)
    (h : (fanout reg found f start is).Holds turns w)
    (hwaits : (fanout reg found f start is).Waits (turns id) w) : ∃ j, turns j ≠ .starts ∧
      ¬ (fanout reg found f start is).Waits (turns j) w ∧ ∀ a, ¬ Finished f base is j a (turns j) := by
  obtain ⟨holder, hfanned⟩ := h
  obtain ⟨_, hlocked⟩ := hwaits
  rw [hfanned.detecting] at hlocked
  obtain ⟨j, hj⟩ := Option.isSome_iff_exists.1 hlocked
  have hturn := (hfanned.lock j).2 hj
  have hother {t : Turn} (ht : ¬ t.Locked) : turns j ≠ t := fun heq => ht (heq ▸ hturn)
  refine ⟨j, hother (by simp [Turn.Locked]), fun hwaits => ?_, fun a hfinished => ?_⟩
  · exact hother (by simp [Turn.Locked]) hwaits.1
  · exact hother (by simp [Turn.Locked]) hfinished.1

/-- The state of a crew on which one query for each device has been submitted. -/
structure Asked (acts : List (Act (Shared β σ) Answer)) (threads : ℕ) (w : Shared β σ)
    (is : List UInt64) : Prop where
  inside : ∀ act ∈ acts, ∀ g, act ≠ .beside g
  accepted : (accepted threads w acts).map Prod.snd = is.map fun i => cached i

theorem Asked.next (h : Asked acts threads w is) : (after threads w acts).next = is.length := by
  have hnumbered := congrArg List.length (Crew.ledger_after threads w acts).numbered
  have hlength := congrArg List.length h.accepted
  simp only [List.length_map, List.length_range] at hnumbered hlength
  omega

/-- The number of a query tells which device it is of. -/
theorem Asked.job (h : Asked acts threads w is) {x : ℕ × Job (Shared β σ) Answer}
    (hx : x ∈ Crew.accepted threads w acts) : ∃ i, is[x.1]? = some i ∧ x.2 = cached i := by
  obtain ⟨k, hk⟩ := List.mem_iff_getElem?.1 hx
  have hnumber := congrArg (·[k]?) (Crew.ledger_after threads w acts).numbered
  have hjob := congrArg (·[k]?) h.accepted
  simp only [List.getElem?_map, hk, Option.map_some] at hnumber hjob
  obtain ⟨hlt, hrange⟩ := List.getElem?_eq_some_iff.1 hnumber.symm
  rw [List.getElem_range] at hrange
  obtain ⟨i, hi, hcached⟩ := Option.map_eq_some_iff.1 hjob.symm
  exact ⟨i, by rw [← hrange, hi], hcached.symm⟩

variable (hnodup : is.Nodup)
  (hdetect : Yields found (reg.detectAll : Job (Shared β σ) (List Reading)))
  (hrefresh : ∀ r, Yields (f r) (reg.refresh r : Job (Shared β σ) (Status × Reading)))
  (hstart : Fanned reg found f start is none (fun _ => .starts) w)
  (hasked : Asked acts threads w is)

include hnodup hdetect hrefresh hstart hasked

/-- The queries stand at places of the protocol, however the workers have moved. -/
theorem Asked.orderly : ∃ turns, Crew.Orderly (fanout reg found f start is) .starts
    (Finished f (detected found start) is) turns (after threads w acts) := by
  refine Crew.orderly_after ⟨none, hstart⟩ hasked.inside fun x hx => ?_
  obtain ⟨i, hid, hjob⟩ := hasked.job hx
  rw [hjob]
  refine (abides_cached hnodup hid hdetect hrefresh).mono fun a t h => ⟨h.1, fun j hj => ?_⟩
  rw [hid] at hj
  rw [h.2, Option.some.inj hj]

/-- Every answer is the one that the slot gives as detection left it. -/
theorem Asked.result {id : ℕ} {i : UInt64} {a : Answer} (hid : is[id]? = some i)
    (ha : (after threads w acts).result? id = some a) : a = answerAt f (detected found start) i := by
  obtain ⟨turns, h⟩ := hasked.orderly hnodup hdetect hrefresh hstart
  obtain ⟨x, hx, rfl⟩ := Option.map_eq_some_iff.1 ha
  have hnumber : x.1 = id := by simpa using List.find?_some hx
  exact (h.done x (List.mem_of_find?_eq_some hx)).2 i (hnumber ▸ hid)

/-- Once no query waits and none is under way, the devices asked for have been read again. -/
theorem Asked.finished (hsome : is ≠ [] ∨ start.initialized = true)
    (hqueue : (after threads w acts).queue = []) (hway : underWay (after threads w acts).workers = []) :
    RenewedAt f (detected found start) (· ∈ is) (after threads w acts).shared.monitor.inventory := by
  obtain ⟨turns, h⟩ := hasked.orderly hnodup hdetect hrefresh hstart
  obtain ⟨holder, hfanned⟩ := h.holds
  refine hfanned.finished (fun id hlt => ?_) hsome
  have hnumbers := (Crew.ledger_after threads w acts).numbers
  rw [hqueue, hway, hasked.next, List.map_nil, List.append_nil, List.append_nil] at hnumbers
  obtain ⟨x, hx, rfl⟩ := List.mem_map.1 (hnumbers.symm.subset (List.mem_range.2 hlt))
  exact (h.done x hx).1

/-- Where nobody can move all queries have been answered, and if the crew is being dissolved all
workers have left. -/
theorem Asked.done (hstuck : (after threads w acts).Stuck) :
    (after threads w acts).queue = [] ∧ underWay (after threads w acts).workers = [] ∧
      ((after threads w acts).stopping = true → (after threads w acts).dissolved = true) ∧
      ∀ id, id < is.length → ∃ a, (after threads w acts).result? id = some a := by
  obtain ⟨turns, h⟩ := hasked.orderly hnodup hdetect hrefresh hstart
  have hl := Crew.ledger_after threads w acts
  obtain ⟨hqueue, hway, hleft⟩ := h.done_of_stuck hl waits_for_holder Crew.workers_after hstuck
  refine ⟨hqueue, hway, hleft, fun id hlt => ?_⟩
  have hnumbers := hl.numbers
  rw [hqueue, hway, hasked.next, List.map_nil, List.append_nil, List.append_nil] at hnumbers
  obtain ⟨a, ha, _⟩ := Crew.result?_of_mem (hnumbers.symm.subset (List.mem_range.2 hlt))
  exact ⟨a, ha⟩

omit hnodup hdetect hrefresh hstart hasked

/-- All queries are submitted first, and no other jobs. -/
theorem asked_append (rest : List (Act (Shared β σ) Answer))
    (hrest : ∀ act ∈ rest, act = .stop ∨ ∃ i, act = .move i) (threads : ℕ) (w : Shared β σ)
    (is : List UInt64) : Asked ((is.map fun i => cached i).map Act.submit ++ rest) threads w is := by
  refine ⟨fun act hact g heq => ?_, ?_⟩
  · subst heq
    rcases List.mem_append.1 hact with hsubmit | hother
    · simp at hsubmit
    · rcases hrest _ hother with hstop | ⟨i, hmove⟩
      · cases hstop
      · cases hmove
  · rw [Crew.accepted_append fun act hact job heq => ?_, Crew.accepted_submits]
    rcases hrest act hact with hstop | ⟨i, hmove⟩
    · rw [hstop] at heq
      cases heq
    · rw [hmove] at heq
      cases heq

theorem asked_moves (threads : ℕ) (w : Shared β σ) (is : List UInt64) (schedule : List ℕ) :
    Asked ((is.map fun i => cached i).map Act.submit ++ schedule.map Act.move) threads w is := by
  refine asked_append _ (fun act hact => ?_) threads w is
  obtain ⟨i, _, rfl⟩ := List.mem_map.1 hact
  exact Or.inr ⟨i, rfl⟩

/-- A crew that is dissolved after some moves. -/
theorem asked_dissolve (pick : Crew.Dispatcher (Shared β σ) Answer) (fuel threads : ℕ)
    (w : Shared β σ) (is : List UInt64) (schedule : List ℕ) :
    ∃ acts, Asked acts threads w is ∧ Act.stop ∈ acts ∧
      (moves schedule (after threads w ((is.map fun i => cached i).map Act.submit))).dissolve
        pick fuel = after threads w acts := by
  obtain ⟨schedule', hsettle⟩ := Crew.settle_eq_moves pick fuel
    (moves schedule (after threads w ((is.map fun i => cached i).map Act.submit))).stop
  refine ⟨_, asked_append (schedule.map Act.move ++ [Act.stop] ++ schedule'.map Act.move)
    (fun act hact => ?_) threads w is, by simp, ?_⟩
  · simp only [List.mem_append, List.mem_map, List.mem_singleton] at hact
    rcases hact with (⟨i, _, rfl⟩ | rfl) | ⟨i, _, rfl⟩
    · exact Or.inr ⟨i, rfl⟩
    · exact Or.inl rfl
    · exact Or.inr ⟨i, rfl⟩
  · rw [Crew.dissolve, hsettle, ← List.append_assoc, ← List.append_assoc, ← Crew.moves_after,
      Crew.after_snoc, Crew.moves_after]
    rfl

variable {pick : Crew.Dispatcher (Shared β σ) Answer} {fuel : ℕ} {o : BackgroundOptions}

omit [BackendCalls β (Job (Shared β σ))] in
/-- Without a bound on the wait, every result is waited for in turn. -/
theorem inBackground_unbounded (ho : o.timeout = none) (jobs : List (Job (Shared β σ) Answer)) :
    inBackground pick fuel o jobs w =
      (collectAll pick fuel none (List.range jobs.length)
        (after o.threads.toNat w (jobs.map Act.submit))).bind fun x =>
          if (x.2.dissolve pick fuel).dissolved then some (x.1, (x.2.dissolve pick fuel).shared)
          else none := by
  have hbounded : o.bounded.timeout = none := by simp [BackgroundOptions.bounded, ho]
  have hnotices : o.notices = [] := by simp [BackgroundOptions.notices, ho]
  rw [inBackground, hbounded, hnotices, after, List.foldl_map]
  rfl

section Outcome

variable (ho : o.timeout = none)

include hnodup hdetect hrefresh hstart ho

/-- What comes out of the background does not depend on the workers. -/
theorem answers_of_inBackground {as : List Answer} {w' : Shared β σ}
    (hsome : is ≠ [] ∨ start.initialized = true)
    (h : inBackground pick fuel o (is.map fun i => cached i) w = some (as, w')) :
    as = is.map (answerAt f (detected found start)) ∧
      RenewedAt f (detected found start) (· ∈ is) w'.monitor.inventory := by
  rw [inBackground_unbounded ho] at h
  obtain ⟨⟨as', c⟩, hcollect, h⟩ := Option.bind_eq_some_iff.1 h
  obtain ⟨hdissolved, heq⟩ := Option.ite_some_none_eq_some.1 h
  cases heq
  obtain ⟨⟨schedule, rfl⟩, hresults⟩ := results_of_collectAll hcollect
  constructor
  · -- each answer is the result of its query, however the workers had moved by then
    rw [List.length_map] at hresults
    have hlength := hresults.length_eq
    rw [List.length_range] at hlength
    refine List.ext_getElem (by rw [List.length_map, hlength]) fun k hk hk' => ?_
    have hrange : k < (List.range is.length).length := by rwa [List.length_range, hlength]
    obtain ⟨s, hs⟩ := (List.forall₂_iff_get.1 hresults).2 k hrange hk
    rw [Crew.moves_after, List.get_eq_getElem, List.getElem_range] at hs
    rw [List.getElem_map]
    exact (asked_moves _ w is s).result hnodup hdetect hrefresh hstart
      (List.getElem?_eq_getElem _) hs
  · obtain ⟨acts, hasked, _, hafter⟩ := asked_dissolve pick fuel o.threads.toNat w is schedule
    rw [hafter] at hdissolved ⊢
    -- once the crew is dissolved, every query is done
    have hl := Crew.ledger_after o.threads.toNat w acts
    obtain ⟨hall, hway⟩ := hl.of_dissolved Crew.workers_after hdissolved
    have hqueue := hl.queued
    rw [hall] at hqueue
    exact hasked.finished hnodup hdetect hrefresh hstart hsome
      (List.self_eq_append_right.1 hqueue) hway

omit ho in
/-- With moves enough a crew that is being dissolved comes to its end. -/
theorem dissolved_of_tireless (hpick : Tireless pick) (threads : ℕ) (schedule : List ℕ) :
    ∃ n, ∀ fuel, n ≤ fuel → ((moves schedule (after threads w
      ((is.map fun i => cached i).map Act.submit))).dissolve pick fuel).dissolved = true := by
  obtain ⟨c, n, hstuck, hsettle⟩ := Crew.settles hpick
    (moves schedule (after threads w ((is.map fun i => cached i).map Act.submit))).stop
  refine ⟨n, fun fuel hfuel => ?_⟩
  obtain ⟨acts, hasked, hstop, hafter⟩ := asked_dissolve pick fuel threads w is schedule
  have hc : c = after threads w acts := by
    rw [← hafter, Crew.dissolve, hsettle fuel hfuel]
  rw [hafter]
  rw [hc] at hstuck
  obtain ⟨_, _, hleft, _⟩ := hasked.done hnodup hdetect hrefresh hstart hstuck
  exact hleft (Crew.stopping_after.2 hstop)

/-- A tireless dispatcher brings everything to its end. -/
theorem inBackground_of_tireless (hpick : Tireless pick) : ∃ n, ∀ fuel, n ≤ fuel →
    ∃ x, inBackground pick fuel o (is.map fun i => cached i) w = some x := by
  obtain ⟨c, n, hstuck, hsettle⟩ := Crew.settles hpick
    (after o.threads.toNat w ((is.map fun i => cached i).map Act.submit))
  obtain ⟨schedule, hmoves⟩ := Crew.settle_eq_moves pick n
    (after o.threads.toNat w ((is.map fun i => cached i).map Act.submit))
  rw [hsettle n (Nat.le_refl n)] at hmoves
  have hresults : ∀ id ∈ List.range (is.map fun i => (cached i : Job (Shared β σ) Answer)).length,
      ∃ a, c.result? id = some a := by
    intro id hid
    rw [hmoves, Crew.moves_after] at hstuck ⊢
    obtain ⟨_, _, _, hall⟩ :=
      (asked_moves _ w is schedule).done hnodup hdetect hrefresh hstart hstuck
    exact hall id (by simpa using hid)
  -- the crew is dissolved from where it settled, or from the start if nothing was asked
  obtain ⟨n₁, hfirst⟩ :=
    dissolved_of_tireless hnodup hdetect hrefresh hstart hpick o.threads.toNat []
  obtain ⟨n₂, hsecond⟩ :=
    dissolved_of_tireless hnodup hdetect hrefresh hstart hpick o.threads.toNat schedule
  refine ⟨max n (max n₁ n₂), fun fuel hfuel => ?_⟩
  obtain ⟨as, c', hcollect, hc'⟩ :=
    collectAll_of_settled hpick (hsettle fuel (by omega)) hstuck hresults
  have hleft : (c'.dissolve pick fuel).dissolved = true := by
    rcases hc' with rfl | rfl
    · exact hfirst fuel (by omega)
    · rw [hmoves]
      exact hsecond fuel (by omega)
  refine ⟨(as, (c'.dissolve pick fuel).shared), ?_⟩
  rw [inBackground_unbounded ho, hcollect, Option.bind_some, if_pos hleft]

end Outcome

end Crew

end GpuTelemetry.Monitor
