import GpuTelemetry.Proofs.Job.Protocol
import Mathlib.Logic.Hydra
/-!
A crew whose workers are moved until nobody can. Whoever is chosen to move, what is left to do becomes
less with every move: a job is a tree of steps, and a step leaves one of its branches. So a dispatcher
that goes on while somebody can move comes to an end.
-/

namespace GpuTelemetry

variable {σ α : Type}

inductive Job.Rest : Job σ α → Job σ α → Prop
  | step (ready : σ → Bool) (update : σ → σ) (next : σ → Job σ α) (s : σ) :
    Rest (next s) (.step ready update next)

/-- No job goes on for ever. -/
theorem Job.wellFounded_rest : WellFounded (Job.Rest : Job σ α → Job σ α → Prop) := by
  refine ⟨fun job => ?_⟩
  induction job with
  | done a => exact ⟨_, fun _ h => nomatch h⟩
  | step ready update next ih =>
    refine ⟨_, fun job h => ?_⟩
    cases h with
    | step _ _ _ s => exact ih s

def Worker.idle? : Worker σ α → Option Unit
  | .idle => some ()
  | .busy _ _ | .left => none

namespace Crew

open Relation (CutExpand)

variable {c : Crew σ α} {i : ℕ} {w : Worker σ α} {pick : Dispatcher σ α} {threads : ℕ} {shared : σ}
  {acts : List (Act σ α)}

/-! ### What is left to do -/

def remaining (c : Crew σ α) : List (Job σ α) :=
  (c.queue ++ underWay c.workers).map Prod.snd

def idlers (c : Crew σ α) : List Unit := c.workers.filterMap Worker.idle?

/-- Less to do, or as much and fewer workers that have not begun. -/
def Less : Crew σ α → Crew σ α → Prop :=
  InvImage (Prod.Lex (CutExpand Job.Rest) (· < ·)) fun c =>
    ((c.remaining : Multiset (Job σ α)), c.idlers.length)

/-- What is left to do does not become less for ever. -/
theorem wellFounded_less : WellFounded (Less : Crew σ α → Crew σ α → Prop) :=
  InvImage.wf _ (WellFounded.prod_lex Job.wellFounded_rest.cutExpand Nat.lt_wfRel.wf)

/-- A worker that is idle no more leaves as much to do as before. -/
theorem less_of_idle {c' : Crew σ α} (hidle : c.workers[i]? = some .idle) (hw : w.idle? = none)
    (hworkers : c'.workers = c.workers.set i w) (hrest : c'.remaining.Perm c.remaining) :
    Less c' c := by
  have hperm := (filterMap_set_perm (f := Worker.idle?) (y := w) hidle).length_eq
  have hlt : c'.idlers.length < c.idlers.length := by
    rw [hw] at hperm
    rw [idlers, idlers, hworkers]
    simp [Worker.idle?] at hperm
    omega
  exact Prod.lex_def.2 (Or.inr ⟨Multiset.coe_eq_coe.2 hrest, hlt⟩)

/-- A job goes away, or makes place for what a step leaves of it. -/
theorem less_of_cut {c' : Crew σ α} {job : Job σ α} (rest : List (Job σ α))
    (hrest : ∀ job' ∈ rest, Job.Rest job' job)
    (hperm : (c'.remaining ++ [job]).Perm (c.remaining ++ rest)) : Less c' c := by
  refine Prod.lex_def.2 (Or.inl ⟨rest, job, hrest, ?_⟩)
  exact Multiset.coe_eq_coe.2 hperm

theorem remaining_set (hbusy : c.workers[i]? = some w) (w' : Worker σ α) (c' : Crew σ α)
    (hqueue : c'.queue = c.queue) (hworkers : c'.workers = c.workers.set i w') :
    (c'.remaining ++ w.task?.toList.map Prod.snd).Perm
      (c.remaining ++ w'.task?.toList.map Prod.snd) := by
  have hway := (underWay_set hbusy w').map Prod.snd
  rw [List.map_append, List.map_append] at hway
  rw [remaining, remaining, hqueue, hworkers, List.map_append, List.map_append, List.append_assoc,
    List.append_assoc]
  exact (List.perm_append_comm.trans (hway.trans List.perm_append_comm)).append_left _

/-- Whoever can move leaves less to do. -/
theorem less_of_move (hw : c.workers[i]? = some w) (hcan : c.canMove w = true) :
    Less (c.move i) c := by
  unfold move
  rw [hw]
  cases w with
  | left => cases hcan
  | idle =>
    -- an idle worker that can move leaves or takes a job, so fewer workers are idle
    cases hq : c.queue with
    | nil =>
      have hstop : c.stopping = true := by simpa [canMove, hq] using hcan
      have hway : (underWay (c.workers.set i .left)).Perm (underWay c.workers) :=
        underWay_set hw .left
      have hrest : ([] ++ underWay (c.workers.set i .left)).Perm (c.queue ++ underWay c.workers) := by
        rw [hq]
        exact hway
      dsimp only
      rw [if_pos hstop]
      exact less_of_idle hw rfl rfl (hrest.map Prod.snd)
    | cons x queue =>
      obtain ⟨id, job⟩ := x
      have hway : (underWay (c.workers.set i (.busy id job))).Perm
          ((id, job) :: underWay c.workers) := underWay_set hw (.busy id job)
      have hrest : (queue ++ underWay (c.workers.set i (.busy id job))).Perm
          (c.queue ++ underWay c.workers) := by
        rw [hq]
        exact (hway.append_left queue).trans List.perm_middle
      exact less_of_idle hw rfl rfl (hrest.map Prod.snd)
  | busy id job =>
    -- a busy one leaves its job with less to do, or with nothing
    cases job with
    | done a =>
      exact less_of_cut [] (by simp) (remaining_set hw .idle _ rfl rfl)
    | step ready update next =>
      have hready : ready c.shared = true := hcan
      dsimp only
      rw [if_pos hready]
      exact less_of_cut [next c.shared] (by simpa using .step ready update next c.shared)
        (remaining_set hw (.busy id (next c.shared)) _ rfl rfl)

/-! ### Until nobody can move -/

/-- A dispatcher that lets somebody move as long as somebody can. -/
structure Tireless (pick : Dispatcher σ α) : Prop where
  moves : ∀ c i, pick c = some i → ∃ w, c.workers[i]? = some w ∧ c.canMove w = true
  rests : ∀ c, pick c = none → c.Stuck

theorem tireless_firstReady : Tireless (firstReady : Dispatcher σ α) where
  moves c i h := by
    obtain ⟨hlt, hcan, _⟩ := List.findIdx?_eq_some_iff_getElem.1 h
    exact ⟨c.workers[i], List.getElem?_eq_getElem hlt, hcan⟩
  rests c h := by
    intro w hw
    exact List.findIdx?_eq_none_iff.1 h w hw

/-- Where nobody can move nothing changes. -/
theorem settle_of_stuck (hpick : Tireless pick) (h : c.Stuck) (fuel : ℕ) :
    settle pick fuel c = c := by
  have hnobody : pick c = none := by
    refine Option.eq_none_iff_forall_ne_some.2 fun i hi => ?_
    obtain ⟨w, hw, hcan⟩ := hpick.moves c i hi
    rw [h w (List.mem_of_getElem? hw)] at hcan
    cases hcan
  cases fuel with
  | zero => rfl
  | succ fuel => rw [settle, hnobody]

/-- Given moves enough, a tireless dispatcher brings a crew to where nobody can move. -/
theorem settles (hpick : Tireless pick) (c : Crew σ α) :
    ∃ c' n, c'.Stuck ∧ ∀ fuel, n ≤ fuel → settle pick fuel c = c' := by
  -- every move leaves less to do, and a dispatcher that never tires moves as long as it can
  induction c using wellFounded_less.induction with
  | _ c ih =>
    cases hp : pick c with
    | none =>
      have hstuck := hpick.rests c hp
      exact ⟨c, 0, hstuck, fun fuel _ => settle_of_stuck hpick hstuck fuel⟩
    | some i =>
      obtain ⟨w, hw, hcan⟩ := hpick.moves c i hp
      obtain ⟨c', n, hstuck, hsettle⟩ := ih (c.move i) (less_of_move hw hcan)
      refine ⟨c', n + 1, hstuck, fun fuel hfuel => ?_⟩
      obtain ⟨fuel, rfl⟩ := Nat.exists_eq_add_of_le' (Nat.lt_of_lt_of_le (Nat.succ_pos n) hfuel)
      rw [settle, hp]
      exact hsettle fuel (by omega)

/-! ### Settling as a history -/

/-- Workers do nothing else while the crew settles but move. -/
theorem settle_eq_moves (pick : Dispatcher σ α) (fuel : ℕ) (c : Crew σ α) :
    ∃ schedule, settle pick fuel c = moves schedule c := by
  induction fuel generalizing c with
  | zero => exact ⟨[], rfl⟩
  | succ fuel ih =>
    rw [settle]
    cases pick c with
    | none => exact ⟨[], rfl⟩
    | some i =>
      obtain ⟨schedule, h⟩ := ih (c.move i)
      exact ⟨i :: schedule, h⟩

theorem moves_after (schedule : List ℕ) : moves schedule (after threads shared acts) =
    after threads shared (acts ++ schedule.map Act.move) := by
  rw [after, after, List.foldl_append, List.foldl_map]
  rfl

theorem workers_after : (after threads shared acts).workers ≠ [] := by
  have hthreads : (after threads shared acts).threads = max 1 threads := threads_after
  apply List.ne_nil_of_length_pos
  change 0 < (after threads shared acts).threads
  omega

/-- Jobs that come before the crew is stopped are accepted, all of them. -/
theorem accepted_submits (threads : ℕ) (shared : σ) (jobs : List (Job σ α)) :
    (accepted threads shared (jobs.map Act.submit)).map Prod.snd = jobs := by
  induction jobs using List.reverseRecOn with
  | nil => rfl
  | append_singleton jobs job ih =>
    have hopen : ¬ (after threads shared (jobs.map Act.submit)).stopping = true := by
      rw [stopping_after]
      simp
    have haccepted : (Act.submit job).accepted? (after threads shared (jobs.map Act.submit)) =
        some ((after threads shared (jobs.map Act.submit)).next, job) := by
      rw [Act.accepted?, Crew.submit, if_neg hopen]
    rw [List.map_append, List.map_singleton, accepted, record_snoc, ← after, haccepted,
      List.map_append]
    exact congrArg (· ++ [job]) ih

/-- Moves and stops bring no job. -/
theorem accepted_append {acts' : List (Act σ α)} (h : ∀ act ∈ acts', ∀ job, act ≠ .submit job) :
    accepted threads shared (acts ++ acts') = accepted threads shared acts := by
  induction acts' using List.reverseRecOn with
  | nil => rw [List.append_nil]
  | append_singleton acts' act ih =>
    have hnone (c : Crew σ α) : act.accepted? c = none := by
      cases act with
      | submit job => exact absurd rfl (h (.submit job) (by simp) job)
      | stop => rfl
      | move i => rfl
      | beside f => rfl
    rw [← List.append_assoc, accepted, record_snoc, hnone, Option.toList_none, List.append_nil]
    exact ih fun act' hact => h act' (List.mem_append_left _ hact)

end Crew

end GpuTelemetry
