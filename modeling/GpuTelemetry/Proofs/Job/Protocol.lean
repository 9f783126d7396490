import GpuTelemetry.Proofs.Job.Crew
import GpuTelemetry.Proofs.Job.Run
import Mathlib.Logic.Function.Basic
/-!
Jobs that share a state and keep a protocol. Each job stands at a place, which no job can see, and an
invariant ties the places of all jobs to the shared state. If every step of every job takes it to a place
with which the invariant holds again, the invariant holds whenever a crew is looked at, however its
workers move; and if whoever has to wait waits for a job that is under way and can go on, a crew in which
nobody can move has done all its jobs.
-/

namespace GpuTelemetry

structure Protocol (σ γ : Type) where
  /-- What holds between two steps, of the places of all jobs and of the shared state. -/
  Holds : (ℕ → γ) → σ → Prop
  /-- A job at this place may have to wait. -/
  Waits : γ → σ → Prop

variable {σ α β γ : Type} {P : Protocol σ γ} {id : ℕ} {g : γ} {places : ℕ → γ} {s : σ}

namespace Job

variable {Q : α → γ → Prop}

/-- From a place, each step of the job with this number takes it to a place with which the invariant
holds again, and `Q` holds of its result and of the place it ends at. -/
def Abides (P : Protocol σ γ) (id : ℕ) : Job σ α → γ → (α → γ → Prop) → Prop
  | .done a, g, Q => Q a g
  | .step ready update next, g, Q => ∀ places s, P.Holds places s → places id = g →
    (ready s = true ∨ P.Waits g s) ∧ (ready s = true →
      ∃ g', P.Holds (Function.update places id g') (update s) ∧ Abides P id (next s) g' Q)

theorem abides_pure {a : α} (h : Q a g) : Abides P id (pure a) g Q := h

theorem Abides.mono {job : Job σ α} {R : α → γ → Prop} (h : Abides P id job g R)
    (hRQ : ∀ a g', R a g' → Q a g') : Abides P id job g Q := by
  induction job generalizing g with
  | done a => exact hRQ a g h
  | step ready update next ih =>
    intro places s hholds hplace
    obtain ⟨hready, hstep⟩ := h places s hholds hplace
    refine ⟨hready, fun hr => ?_⟩
    obtain ⟨g', hholds', hnext⟩ := hstep hr
    exact ⟨g', hholds', ih s hnext⟩

/-- The second part of a job begins at the place where the first one ends. -/
theorem abides_bind {job : Job σ β} {f : β → Job σ α}
    (h : Abides P id job g fun b g' => Abides P id (f b) g' Q) : Abides P id (job >>= f) g Q := by
  induction job generalizing g with
  | done b => exact h
  | step ready update next ih =>
    intro places s hholds hplace
    obtain ⟨hready, hstep⟩ := h places s hholds hplace
    refine ⟨hready, fun hr => ?_⟩
    obtain ⟨g', hholds', hnext⟩ := hstep hr
    exact ⟨g', hholds', ih s hnext⟩

/-- A step that never waits. -/
theorem abides_atomic {f : σ → α × σ} (h : ∀ places s, P.Holds places s → places id = g →
    ∃ g', P.Holds (Function.update places id g') (f s).2 ∧ Q (f s).1 g') :
    Abides P id (atomic f) g Q :=
  fun places s hholds hplace => ⟨Or.inl rfl, fun _ => h places s hholds hplace⟩

/-- Alone, a job that never has to wait comes to its end. -/
theorem Abides.ends {job : Job σ α} (h : Abides P id job g Q) (hholds : P.Holds places s)
    (hplace : places id = g) (hfree : ∀ places' s', P.Holds places' s' →
      (∀ j, j ≠ id → places' j = places j) → ¬ P.Waits (places' id) s') :
    Ends job s fun a s' => ∃ g', Q a g' ∧ P.Holds (Function.update places id g') s' := by
  induction job generalizing g places s with
  | done a =>
    refine ends_pure ⟨g, h, ?_⟩
    rwa [← hplace, Function.update_eq_self]
  | step ready update next ih =>
    obtain ⟨hready, hstep⟩ := h places s hholds hplace
    -- nobody else moves, so waiting at this step would go on for ever
    have hr : ready s = true := by
      refine hready.resolve_right ?_
      rw [← hplace]
      exact hfree places s hholds fun _ _ => rfl
    obtain ⟨g', hholds', hnext⟩ := hstep hr
    have hrest := ih s hnext hholds' (Function.update_self id g' places) fun places' s' h' hsame =>
      hfree places' s' h' fun j hj => (hsame j hj).trans (Function.update_of_ne hj g' places)
    obtain ⟨a, s', hrun, g'', hQ, hend⟩ := hrest
    refine ⟨a, s', ?_, g'', hQ, ?_⟩
    · rw [run, if_pos hr, hrun]
    · rwa [Function.update_idem] at hend

end Job

namespace Crew

open Job (Abides)

variable {c : Crew σ α} {start : γ} {Q : ℕ → α → γ → Prop} {came went : List (ℕ × Job σ α)} {i : ℕ}
  {threads : ℕ} {shared : σ} {acts : List (Act σ α)}

/-- Every number below the next one is that of one job: done, under way or waiting. -/
theorem Ledger.numbers (h : Ledger came went c) :
    (c.results.map Prod.fst ++ (underWay c.workers).map Prod.fst ++ c.queue.map Prod.fst).Perm
      (List.range c.next) := by
  rw [← h.numbered, h.queued, List.map_append]
  exact h.placed.append_right _

theorem Ledger.nodup (h : Ledger came went c) :
    (c.results.map Prod.fst ++ (underWay c.workers).map Prod.fst ++ c.queue.map Prod.fst).Nodup :=
  h.numbers.nodup_iff.2 List.nodup_range

/-- Only jobs that have been accepted have results. -/
theorem lt_next_of_result? {id : ℕ} {a : α} (ha : (after threads shared acts).result? id = some a) :
    id < (after threads shared acts).next := by
  obtain ⟨x, hx, rfl⟩ := Option.map_eq_some_iff.1 ha
  have hkey : x.1 = id := by simpa using List.find?_some hx
  have hmem := List.mem_map_of_mem (f := Prod.fst) (List.mem_of_find?_eq_some hx)
  have hnumber := (ledger_after threads shared acts).numbers.subset
    (List.mem_append_left _ (List.mem_append_left _ hmem))
  exact hkey ▸ List.mem_range.1 hnumber

structure Orderly (P : Protocol σ γ) (start : γ) (Q : ℕ → α → γ → Prop) (places : ℕ → γ)
    (c : Crew σ α) : Prop where
  holds : P.Holds places c.shared
  queued : ∀ x ∈ c.queue, places x.1 = start ∧ Abides P x.1 x.2 start (Q x.1)
  going : ∀ x ∈ underWay c.workers, Abides P x.1 x.2 (places x.1) (Q x.1)
  done : ∀ x ∈ c.results, Q x.1 x.2 (places x.1)
  unborn : ∀ id, c.next ≤ id → places id = start

/-- A step of a job leads to a place with which the invariant holds again. -/
theorem Orderly.goesOn {id : ℕ} {ready : σ → Bool} {update : σ → σ} {next : σ → Job σ α}
    (h : Orderly P start Q places c) (hl : Ledger came went c)
    (hbusy : c.workers[i]? = some (.busy id (.step ready update next)))
    (hready : ready c.shared = true) : ∃ places', Orderly P start Q places' { c with
      workers := c.workers.set i (.busy id (next c.shared)), shared := update c.shared } := by
  have hbefore : (id, .step ready update next) ∈ underWay c.workers :=
    List.mem_filterMap.2 ⟨_, List.mem_of_getElem? hbusy, rfl⟩
  have hl' := hl.goesOn hbusy hready
  obtain ⟨hboth, hqueue, hqueueNot⟩ := List.nodup_append.1 hl.nodup
  obtain ⟨hresult, hway, hresultNot⟩ := List.nodup_append.1 hboth
  have hid : id ∈ (underWay c.workers).map Prod.fst := List.mem_map_of_mem hbefore
  obtain ⟨_, hstep⟩ := h.going _ hbefore places c.shared h.holds rfl
  obtain ⟨g', hholds, hnext⟩ := hstep hready
  -- the other jobs have other numbers, so they stand where they stood
  have hother {j : ℕ} (hj : j ≠ id) : Function.update places id g' j = places j :=
    Function.update_of_ne hj g' places
  refine ⟨Function.update places id g', hholds, fun x hx => ?_, fun x hx => ?_, fun x hx => ?_,
    fun j hj => ?_⟩
  · have hne : x.1 ≠ id := fun heq =>
      hqueueNot _ (List.mem_append_right _ hid) _ (List.mem_map_of_mem hx) heq.symm
    rw [hother hne]
    exact h.queued x hx
  · have hwayPerm : ((id, .step ready update next) ::
        underWay (c.workers.set i (.busy id (next c.shared)))).Perm
          ((id, next c.shared) :: underWay c.workers) :=
      underWay_set hbusy (.busy id (next c.shared))
    have hself : (id, next c.shared) ∈ underWay (c.workers.set i (.busy id (next c.shared))) :=
      List.mem_filterMap.2 ⟨_, List.mem_of_getElem? (set_getElem? hbusy), rfl⟩
    by_cases hne : x.1 = id
    · have hnodup := (List.nodup_append.1 (List.nodup_append.1 hl'.nodup).1).2.1
      obtain rfl : x = (id, next c.shared) := List.inj_on_of_nodup_map hnodup hx hself hne
      rw [Function.update_self]
      exact hnext
    · rcases List.mem_cons.1 (hwayPerm.subset (List.mem_cons_of_mem _ hx)) with rfl | hold
      · exact absurd rfl hne
      · rw [hother hne]
        exact h.going x hold
  · have hne : x.1 ≠ id := fun heq => hresultNot _ (List.mem_map_of_mem hx) _ hid heq
    rw [hother hne]
    exact h.done x hx
  · have hne : j ≠ id := by
      have hlt : id < c.next := by
        have hmem := hl.numbers.subset (List.mem_append_left _ (List.mem_append_right _ hid))
        exact List.mem_range.1 hmem
      exact Nat.ne_of_gt (Nat.lt_of_lt_of_le hlt hj)
    rw [hother hne]
    exact h.unborn j hj

/-- A move of a worker leaves the crew in order. -/
theorem Orderly.move (h : Orderly P start Q places c) (hl : Ledger came went c) (i : ℕ) :
    ∃ places', Orderly P start Q places' (c.move i) := by
  have hmove := moved i c
  generalize c.move i = c' at hmove
  cases hmove with
  | takes id job queue hidle hqueue =>
    -- the job goes from the queue to those under way, and stays where it stands
    have hway : (underWay (c.workers.set i (.busy id job))).Perm ((id, job) :: underWay c.workers) :=
      underWay_set hidle (.busy id job)
    have hqueued := h.queued
    rw [hqueue] at hqueued
    refine ⟨places, h.holds, fun x hx => hqueued x (List.mem_cons_of_mem _ hx), fun x hx => ?_,
      h.done, h.unborn⟩
    rcases List.mem_cons.1 (hway.subset hx) with rfl | hold
    · obtain ⟨hplace, habides⟩ := hqueued _ List.mem_cons_self
      rw [hplace]
      exact habides
    · exact h.going x hold
  | leaves hidle hqueue hstop =>
    have hway : (underWay (c.workers.set i .left)).Perm (underWay c.workers) :=
      underWay_set hidle .left
    exact ⟨places, h.holds, h.queued, fun x hx => h.going x (hway.subset hx), h.done, h.unborn⟩
  | handsIn id a hbusy =>
    have hway : ((id, .done a) :: underWay (c.workers.set i .idle)).Perm (underWay c.workers) :=
      underWay_set hbusy .idle
    refine ⟨places, h.holds, h.queued,
      fun x hx => h.going x (hway.subset (List.mem_cons_of_mem _ hx)), fun x hx => ?_, h.unborn⟩
    rcases List.mem_cons.1 hx with rfl | hold
    · exact h.going (id, .done a) (hway.subset List.mem_cons_self)
    · exact h.done x hold
  | goesOn id ready update next hbusy hready => exact h.goesOn hl hbusy hready
  | rests => exact ⟨places, h⟩

/-- A job that is accepted stands at the start. -/
theorem Orderly.submit (h : Orderly P start Q places c) {job : Job σ α}
    (hjob : (c.submit job).1 = .ok c.next → Abides P c.next job start (Q c.next)) :
    Orderly P start Q places (c.submit job).2 := by
  unfold Crew.submit at hjob ⊢
  by_cases hstop : c.stopping = true
  · rw [if_pos hstop]
    exact h
  · rw [if_neg hstop] at hjob ⊢
    refine ⟨h.holds, fun x hx => ?_, h.going, h.done, fun j hj => h.unborn j (Nat.le_of_succ_le hj)⟩
    rcases List.mem_append.1 hx with hold | hnew
    · exact h.queued x hold
    · obtain rfl := List.mem_singleton.1 hnew
      exact ⟨h.unborn c.next (Nat.le_refl _), hjob rfl⟩

/-- However the workers move, a crew stays in order whose jobs all keep the protocol. -/
theorem orderly_after (hstart : P.Holds (fun _ => start) shared)
    (hinside : ∀ act ∈ acts, ∀ f, act ≠ .beside f)
    (hjobs : ∀ x ∈ accepted threads shared acts, Abides P x.1 x.2 start (Q x.1)) :
    ∃ places, Orderly P start Q places (after threads shared acts) := by
  induction acts using List.reverseRecOn with
  | nil =>
    refine ⟨fun _ => start, hstart, by simp [after, new], fun x hx => ?_, by simp [after, new],
      fun _ _ => rfl⟩
    -- a new crew has nothing to do
    have hnobody : underWay (new threads shared : Crew σ α).workers = [] := by
      simp [underWay, new, Worker.task?]
    rw [after, List.foldl_nil, hnobody] at hx
    cases hx
  | append_singleton acts act ih =>
    rw [accepted, record_snoc] at hjobs
    obtain ⟨places, h⟩ := ih (fun act' hact => hinside act' (List.mem_append_left _ hact))
      fun x hx => hjobs x (List.mem_append_left _ hx)
    rw [after_snoc]
    cases act with
    | submit job =>
      refine ⟨places, h.submit fun hok => hjobs (_, job) (List.mem_append_right _ ?_)⟩
      have haccepted : (Act.submit job).accepted? (after threads shared acts) =
          some ((after threads shared acts).next, job) := by
        rw [Act.accepted?, hok]
      rw [after] at haccepted ⊢
      rw [haccepted]
      exact List.mem_singleton_self _
    | stop => exact ⟨places, h.holds, h.queued, h.going, h.done, h.unborn⟩
    | move i => exact h.move (ledger_after threads shared acts) i
    | beside f => exact absurd rfl (hinside (.beside f) (by simp) f)

def Stuck (c : Crew σ α) : Prop := ∀ w ∈ c.workers, c.canMove w = false

/-- While nobody can move, every job under way waits. -/
theorem Orderly.waits_of_stuck (h : Orderly P start Q places c) (hstuck : c.Stuck) {x : ℕ × Job σ α}
    (hx : x ∈ underWay c.workers) : P.Waits (places x.1) c.shared := by
  obtain ⟨w, hw, htask⟩ := List.mem_filterMap.1 hx
  have hcannot := hstuck w hw
  have habides := h.going x hx
  cases w with
  | idle => cases htask
  | left => cases htask
  | busy id job =>
    cases htask
    cases job with
    | done a => cases hcannot
    | step ready update next =>
      obtain ⟨hready, _⟩ := habides places c.shared h.holds rfl
      refine hready.resolve_left ?_
      rw [show ready c.shared = false from hcannot]
      exact Bool.false_ne_true

/-- A job that has begun, does not wait and is not done would be under way, and then it would wait. -/
theorem Orderly.absurd_of_stuck (h : Orderly P start Q places c) (hl : Ledger came went c)
    (hstuck : c.Stuck) {j : ℕ} (hbegun : places j ≠ start) (hgoes : ¬ P.Waits (places j) c.shared)
    (hunfinished : ∀ a, ¬ Q j a (places j)) : False := by
  have hlt : j < c.next := by
    by_contra hge
    exact hbegun (h.unborn j (Nat.le_of_not_lt hge))
  -- a job that was accepted is done, under way or waits in the queue
  have hmem := hl.numbers.symm.subset (List.mem_range.2 hlt)
  rcases List.mem_append.1 hmem with hplaced | hqueued
  · rcases List.mem_append.1 hplaced with hdone | hgoing
    · obtain ⟨y, hy, rfl⟩ := List.mem_map.1 hdone
      exact hunfinished y.2 (h.done y hy)
    · obtain ⟨y, hy, rfl⟩ := List.mem_map.1 hgoing
      exact hgoes (h.waits_of_stuck hstuck hy)
  · obtain ⟨y, hy, rfl⟩ := List.mem_map.1 hqueued
    exact hbegun (h.queued y hy).1

/-- If no job is under way then, a worker has left, or it is idle for lack of jobs. -/
theorem resting_of_stuck (hstuck : c.Stuck) (hway : underWay c.workers = []) {w : Worker σ α}
    (hw : w ∈ c.workers) : w = .left ∨ w = .idle ∧ c.queue = [] ∧ c.stopping = false := by
  have hcannot := hstuck w hw
  cases w with
  | left => exact Or.inl rfl
  | busy id job =>
    have hmem : (id, job) ∈ underWay c.workers := List.mem_filterMap.2 ⟨_, hw, rfl⟩
    rw [hway] at hmem
    cases hmem
  | idle =>
    obtain ⟨hq, hs⟩ : c.queue = [] ∧ c.stopping = false := by simpa [canMove] using hcannot
    exact Or.inr ⟨rfl, hq, hs⟩

/-- A crew in which nobody can move has done all it has accepted; if it is being dissolved, all have
left. -/
theorem Orderly.done_of_stuck (h : Orderly P start Q places c) (hl : Ledger came went c)
    (hlive : ∀ places s id, P.Holds places s → P.Waits (places id) s →
      ∃ j, places j ≠ start ∧ ¬ P.Waits (places j) s ∧ ∀ a, ¬ Q j a (places j))
    (hworkers : c.workers ≠ []) (hstuck : c.Stuck) :
    c.queue = [] ∧ underWay c.workers = [] ∧ (c.stopping = true → c.dissolved = true) := by
  have hway : underWay c.workers = [] := by
    refine List.eq_nil_iff_forall_not_mem.2 fun x hx => ?_
    have hwaits := h.waits_of_stuck hstuck hx
    -- whoever waits, waits for a job that could go on
    obtain ⟨j, hbegun, hgoes, hunfinished⟩ := hlive places c.shared x.1 h.holds hwaits
    exact h.absurd_of_stuck hl hstuck hbegun hgoes hunfinished
  refine ⟨?_, hway, fun hstop => List.all_eq_true.2 fun w hw => ?_⟩
  · obtain ⟨w, hw⟩ := List.exists_mem_of_ne_nil c.workers hworkers
    rcases resting_of_stuck hstuck hway hw with rfl | ⟨_, hq, _⟩
    · exact (hl.left hw).2
    · exact hq
  · rcases resting_of_stuck hstuck hway hw with rfl | ⟨_, _, hs⟩
    · rfl
    · rw [hs] at hstop
      cases hstop

end Crew

end GpuTelemetry
