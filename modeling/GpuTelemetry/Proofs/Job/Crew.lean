import GpuTelemetry.Job.Crew
import Mathlib.Data.List.Induction
import Mathlib.Data.List.Nodup
/-!
A crew from its first job to its last. Whatever the order in which jobs come in, workers move and the
crew is stopped, every job that was accepted is taken once, in the order of acceptance, and it is done
before the last worker has left.
-/

namespace GpuTelemetry

variable {σ α γ δ : Type}

/-- A job comes to be another by its own steps, each in a state in which it does not have to wait. -/
inductive Job.Reaches (job : Job σ α) : Job σ α → Prop
  | start : Reaches job job
  | step {ready : σ → Bool} {update : σ → σ} {next : σ → Job σ α} {s : σ}
    (h : Reaches job (.step ready update next)) (hready : ready s = true) : Reaches job (next s)

def Worker.task? : Worker σ α → Option (ℕ × Job σ α)
  | .busy id job => some (id, job)
  | .idle | .left => none

def Worker.taken? : Option (Worker σ α) → Option (Worker σ α) → Option (ℕ × Job σ α)
  | some .idle, some (.busy id job) => some (id, job)
  | _, _ => none

namespace Crew

inductive Act (σ α : Type) where
  | submit (job : Job σ α)
  | stop
  | move (i : ℕ)
  /-- The shared state changes from beside the crew. -/
  | beside (f : σ → σ)

namespace Act

def apply (c : Crew σ α) : Act σ α → Crew σ α
  | submit job => (c.submit job).2
  | stop => c.stop
  | move i => c.move i
  | beside f => { c with shared := f c.shared }

def accepted? (c : Crew σ α) : Act σ α → Option (ℕ × Job σ α)
  | submit job =>
    match (c.submit job).1 with
    | .ok id => some (id, job)
    | .error _ => none
  | _ => none

/-- The job that is taken: a worker was idle and is busy with it afterwards. -/
def taken? (c : Crew σ α) : Act σ α → Option (ℕ × Job σ α)
  | move i => Worker.taken? c.workers[i]? (c.move i).workers[i]?
  | _ => none

end Act

def after (threads : ℕ) (shared : σ) (acts : List (Act σ α)) : Crew σ α :=
  acts.foldl Act.apply (new threads shared)

def record (see : Crew σ α → Act σ α → Option γ) : Crew σ α → List (Act σ α) → List γ
  | _, [] => []
  | c, act :: acts => (see c act).toList ++ record see (act.apply c) acts

def accepted (threads : ℕ) (shared : σ) (acts : List (Act σ α)) : List (ℕ × Job σ α) :=
  record Act.accepted? (new threads shared) acts

def taken (threads : ℕ) (shared : σ) (acts : List (Act σ α)) : List (ℕ × Job σ α) :=
  record Act.taken? (new threads shared) acts

def underWay (workers : List (Worker σ α)) : List (ℕ × Job σ α) := workers.filterMap Worker.task?

variable {c c' : Crew σ α} {i : ℕ} {act : Act σ α} {acts : List (Act σ α)} {threads : ℕ} {shared : σ}

theorem after_snoc : after threads shared (acts ++ [act]) = act.apply (after threads shared acts) := by
  simp [after]

theorem record_snoc (see : Crew σ α → Act σ α → Option γ) (c : Crew σ α) :
    record see c (acts ++ [act]) =
      record see c acts ++ (see (acts.foldl Act.apply c) act).toList := by
  induction acts generalizing c with
  | nil => simp [record]
  | cons first acts ih => simp [record, ih]

/-! ### What a move does -/

inductive Moved (i : ℕ) (c : Crew σ α) : Crew σ α → Prop
  | takes (id : ℕ) (job : Job σ α) (queue : List (ℕ × Job σ α))
    (hidle : c.workers[i]? = some .idle) (hqueue : c.queue = (id, job) :: queue) :
    Moved i c { c with queue, workers := c.workers.set i (.busy id job) }
  | leaves (hidle : c.workers[i]? = some .idle) (hqueue : c.queue = [])
    (hstop : c.stopping = true) : Moved i c { c with workers := c.workers.set i .left }
  | handsIn (id : ℕ) (a : α) (hbusy : c.workers[i]? = some (.busy id (.done a))) :
    Moved i c { c with workers := c.workers.set i .idle, results := (id, a) :: c.results }
  | goesOn (id : ℕ) (ready : σ → Bool) (update : σ → σ) (next : σ → Job σ α)
    (hbusy : c.workers[i]? = some (.busy id (.step ready update next)))
    (hready : ready c.shared = true) : Moved i c { c with
      workers := c.workers.set i (.busy id (next c.shared)), shared := update c.shared }
  | rests : Moved i c c

theorem moved (i : ℕ) (c : Crew σ α) : Moved i c (c.move i) := by
  unfold move
  cases hw : c.workers[i]? with
  | none => exact .rests
  | some worker =>
    cases worker with
    | idle =>
      cases hq : c.queue with
      | nil =>
        by_cases hs : c.stopping = true
        · simpa [hs, hq] using Moved.leaves hw hq hs
        · simpa [hs] using Moved.rests
      | cons x queue => exact .takes x.1 x.2 queue hw hq
    | busy id job =>
      cases job with
      | done a => exact .handsIn id a hw
      | step ready update next =>
        by_cases hr : ready c.shared = true
        · simpa [hr] using Moved.goesOn id ready update next hw hr
        · simpa [hr] using Moved.rests
    | left => exact .rests

theorem set_getElem? {worker w : Worker σ α} (h : c.workers[i]? = some w) :
    (c.workers.set i worker)[i]? = some worker := by
  obtain ⟨hlt, _⟩ := List.getElem?_eq_some_iff.1 h
  exact List.getElem?_set_self hlt

/-- One element is changed: what is picked from the list changes by what is picked from that one. -/
theorem filterMap_set_perm {f : γ → Option δ} {xs : List γ} {x y : γ} (h : xs[i]? = some x) :
    ((f x).toList ++ (xs.set i y).filterMap f).Perm ((f y).toList ++ xs.filterMap f) := by
  have hcons (a : γ) (as : List γ) : (a :: as).filterMap f = (f a).toList ++ as.filterMap f := by
    cases hf : f a <;> simp [hf]
  induction xs generalizing i with
  | nil => simp at h
  | cons a as ih =>
    cases i with
    | zero =>
      obtain rfl : a = x := by simpa using h
      rw [List.set_cons_zero, hcons, hcons]
      exact List.perm_append_comm_assoc _ _ _
    | succ i =>
      -- the entry that is replaced stands further on, so it is brought past `a` and back
      have hrest := ih (i := i) (by simpa using h)
      rw [List.set_cons_succ, hcons, hcons]
      calc (f x).toList ++ ((f a).toList ++ (as.set i y).filterMap f)
        _ |>.Perm ((f a).toList ++ ((f x).toList ++ (as.set i y).filterMap f)) :=
            List.perm_append_comm_assoc _ _ _
        _ |>.Perm ((f a).toList ++ ((f y).toList ++ as.filterMap f)) := hrest.append_left _
        _ |>.Perm ((f y).toList ++ ((f a).toList ++ as.filterMap f)) :=
            List.perm_append_comm_assoc _ _ _

/-! ### Who has which job -/

/-- Where the jobs are that were accepted: those taken are done or under way, the others wait in the
order in which they came. -/
structure Ledger (came went : List (ℕ × Job σ α)) (c : Crew σ α) : Prop where
  queued : came = went ++ c.queue
  numbered : came.map Prod.fst = List.range c.next
  placed : (c.results.map Prod.fst ++ (underWay c.workers).map Prod.fst).Perm (went.map Prod.fst)
  going : ∀ x ∈ underWay c.workers, ∃ job, (x.1, job) ∈ went ∧ job.Reaches x.2
  done : ∀ x ∈ c.results, ∃ job, (x.1, job) ∈ went ∧ job.Reaches (.done x.2)
  left : Worker.left ∈ c.workers → c.stopping = true ∧ c.queue = []

variable {came went : List (ℕ × Job σ α)}

/-- A worker turns from `w` to `w'`, so one job comes to be under way, or is so no more. -/
theorem underWay_set {workers : List (Worker σ α)} {w : Worker σ α} (h : workers[i]? = some w)
    (w' : Worker σ α) : (w.task?.toList ++ underWay (workers.set i w')).Perm
      (w'.task?.toList ++ underWay workers) :=
  filterMap_set_perm h

theorem ledger_new (threads : ℕ) (shared : σ) : Ledger [] [] (new threads shared : Crew σ α) := by
  have hidle : underWay (new threads shared : Crew σ α).workers = [] := by
    simp [underWay, new, Worker.task?]
  refine ⟨rfl, rfl, ?_, ?_, ?_, ?_⟩
  · rw [hidle]
    exact List.Perm.refl _
  · simp [hidle]
  · simp [new]
  · simp [new]

theorem left_of_set {workers : List (Worker σ α)} {w : Worker σ α}
    (h : Worker.left ∈ workers.set i w) (hw : w ≠ .left) : Worker.left ∈ workers := by
  rcases List.mem_or_eq_of_mem_set h with hold | hnew
  · exact hold
  · exact absurd hnew.symm hw

/-- A worker takes the first job that waits. -/
theorem Ledger.takes {id : ℕ} {job : Job σ α} {queue : List (ℕ × Job σ α)}
    (h : Ledger came went c) (hidle : c.workers[i]? = some .idle)
    (hqueue : c.queue = (id, job) :: queue) : Ledger came (went ++ [(id, job)])
      { c with queue, workers := c.workers.set i (.busy id job) } := by
  have hway : (underWay (c.workers.set i (.busy id job))).Perm ((id, job) :: underWay c.workers) :=
    underWay_set hidle (.busy id job)
  -- as long as a job waits nobody has left
  have hstay : Worker.left ∉ c.workers := by
    intro hleft
    have hempty := (h.left hleft).2
    rw [hqueue] at hempty
    cases hempty
  refine ⟨?_, h.numbered, ?_, ?_, ?_, ?_⟩
  · rw [h.queued, hqueue, List.append_assoc, List.singleton_append]
  · calc c.results.map Prod.fst ++ (underWay (c.workers.set i (.busy id job))).map Prod.fst
      _ |>.Perm (c.results.map Prod.fst ++ id :: (underWay c.workers).map Prod.fst) :=
          (hway.map Prod.fst).append_left _
      _ |>.Perm (id :: (c.results.map Prod.fst ++ (underWay c.workers).map Prod.fst)) :=
          List.perm_middle
      _ |>.Perm (id :: went.map Prod.fst) := h.placed.cons id
      _ |>.Perm ((went ++ [(id, job)]).map Prod.fst) := by
          rw [List.map_append]
          exact (List.perm_append_singleton id _).symm
  · intro x hx
    rcases List.mem_cons.1 (hway.subset hx) with rfl | hold
    · exact ⟨job, by simp, .start⟩
    · obtain ⟨job', hjob, hreach⟩ := h.going x hold
      exact ⟨job', List.mem_append_left _ hjob, hreach⟩
  · intro x hx
    obtain ⟨job', hjob, hreach⟩ := h.done x hx
    exact ⟨job', List.mem_append_left _ hjob, hreach⟩
  · intro hleft
    exact absurd (left_of_set hleft nofun) hstay

/-- A worker leaves when nothing waits and the crew is being dissolved. -/
theorem Ledger.leaves (h : Ledger came went c) (hidle : c.workers[i]? = some .idle)
    (hqueue : c.queue = []) (hstop : c.stopping = true) :
    Ledger came went { c with workers := c.workers.set i .left } := by
  have hway : (underWay (c.workers.set i .left)).Perm (underWay c.workers) :=
    underWay_set hidle .left
  refine ⟨h.queued, h.numbered, ?_, ?_, h.done, ?_⟩
  · exact ((hway.map Prod.fst).append_left _).trans h.placed
  · intro x hx
    exact h.going x (hway.subset hx)
  · intro _
    exact ⟨hstop, hqueue⟩

/-- A worker hands in a result and is free again. -/
theorem Ledger.handsIn {id : ℕ} {a : α} (h : Ledger came went c)
    (hbusy : c.workers[i]? = some (.busy id (.done a))) : Ledger came went
      { c with workers := c.workers.set i .idle, results := (id, a) :: c.results } := by
  -- the job goes from those under way to those that are done
  have hway : ((id, .done a) :: underWay (c.workers.set i .idle)).Perm (underWay c.workers) :=
    underWay_set hbusy .idle
  refine ⟨h.queued, h.numbered, ?_, ?_, ?_, ?_⟩
  · calc ((id, a) :: c.results).map Prod.fst ++ (underWay (c.workers.set i .idle)).map Prod.fst
      _ |>.Perm (c.results.map Prod.fst ++ id :: (underWay (c.workers.set i .idle)).map Prod.fst) :=
          List.perm_middle.symm
      _ |>.Perm (c.results.map Prod.fst ++ (underWay c.workers).map Prod.fst) :=
          (hway.map Prod.fst).append_left _
      _ |>.Perm (went.map Prod.fst) := h.placed
  · intro x hx
    exact h.going x (hway.subset (List.mem_cons_of_mem _ hx))
  · intro x hx
    rcases List.mem_cons.1 hx with rfl | hold
    · exact h.going (id, .done a) (hway.subset List.mem_cons_self)
    · exact h.done x hold
  · intro hleft
    exact h.left (left_of_set hleft nofun)

/-- A worker goes on with its job. -/
theorem Ledger.goesOn {id : ℕ} {ready : σ → Bool} {update : σ → σ} {next : σ → Job σ α}
    (h : Ledger came went c) (hbusy : c.workers[i]? = some (.busy id (.step ready update next)))
    (hready : ready c.shared = true) : Ledger came went { c with
      workers := c.workers.set i (.busy id (next c.shared)), shared := update c.shared } := by
  have hway : ((id, .step ready update next) ::
      underWay (c.workers.set i (.busy id (next c.shared)))).Perm
        ((id, next c.shared) :: underWay c.workers) := underWay_set hbusy (.busy id (next c.shared))
  have hnumbers := (List.perm_cons id).1 (hway.map Prod.fst)
  refine ⟨h.queued, h.numbered, ?_, ?_, h.done, ?_⟩
  · exact (hnumbers.append_left _).trans h.placed
  · intro x hx
    rcases List.mem_cons.1 (hway.subset (List.mem_cons_of_mem _ hx)) with rfl | hold
    -- the job that went on was under way before
    · have hbefore : (id, .step ready update next) ∈ underWay c.workers :=
        List.mem_filterMap.2 ⟨_, List.mem_of_getElem? hbusy, rfl⟩
      obtain ⟨job, hjob, hreach⟩ := h.going _ hbefore
      exact ⟨job, hjob, hreach.step hready⟩
    · exact h.going x hold
  · intro hleft
    exact h.left (left_of_set hleft nofun)

/-- Every move of a worker keeps the ledger. -/
theorem Ledger.move (h : Ledger came went c) (i : ℕ) :
    Ledger came (went ++ ((Act.move i).taken? c).toList) (c.move i) := by
  have hmove := moved i c
  rw [Act.taken?]
  generalize c.move i = c' at hmove
  cases hmove with
  | takes id job queue hidle hqueue =>
    rw [hidle, set_getElem? hidle]
    exact h.takes hidle hqueue
  | leaves hidle hqueue hstop =>
    rw [hidle, set_getElem? hidle]
    simpa [Worker.taken?] using h.leaves hidle hqueue hstop
  | handsIn id a hbusy =>
    rw [hbusy]
    simpa [Worker.taken?] using h.handsIn hbusy
  | goesOn id ready update next hbusy hready =>
    rw [hbusy]
    simpa [Worker.taken?] using h.goesOn hbusy hready
  | rests =>
    -- a worker that stays what it is has taken nothing
    have hnone : Worker.taken? c.workers[i]? c.workers[i]? = none := by
      unfold Worker.taken?
      split <;> simp_all
    simpa [hnone] using h

/-- A job that is accepted goes to the end of the queue. -/
theorem Ledger.submit (h : Ledger came went c) (job : Job σ α) :
    Ledger (came ++ ((Act.submit job).accepted? c).toList) went (c.submit job).2 := by
  unfold Act.accepted? Crew.submit
  by_cases hstop : c.stopping = true
  · simpa [hstop] using h
  · simp only [hstop, Bool.false_eq_true, if_false, Option.toList_some]
    refine ⟨?_, ?_, h.placed, h.going, h.done, ?_⟩
    · rw [h.queued, List.append_assoc]
    · rw [List.map_append, h.numbered, List.range_succ]
      rfl
    · intro hleft
      exact absurd (h.left hleft).1 hstop

/-- What one act does to the jobs. -/
theorem Ledger.step (h : Ledger came went c) (act : Act σ α) :
    Ledger (came ++ (act.accepted? c).toList) (went ++ (act.taken? c).toList) (act.apply c) := by
  cases act with
  | submit job => simpa [Act.apply, Act.taken?] using h.submit job
  | stop =>
    simp only [Act.accepted?, Act.taken?, Option.toList_none, List.append_nil]
    exact ⟨h.queued, h.numbered, h.placed, h.going, h.done, fun hleft => ⟨rfl, (h.left hleft).2⟩⟩
  | move i => simpa [Act.apply, Act.accepted?] using h.move i
  | beside f =>
    simp only [Act.accepted?, Act.taken?, Option.toList_none, List.append_nil]
    exact ⟨h.queued, h.numbered, h.placed, h.going, h.done, h.left⟩

/-- The ledger is right after every history. -/
theorem ledger_after (threads : ℕ) (shared : σ) (acts : List (Act σ α)) :
    Ledger (Crew.accepted threads shared acts) (Crew.taken threads shared acts)
      (after threads shared acts) := by
  induction acts using List.reverseRecOn with
  | nil => exact ledger_new threads shared
  | append_singleton acts act ih =>
    rw [Crew.accepted, Crew.taken, record_snoc, record_snoc, after_snoc]
    exact ih.step act

/-! ### The end of a crew -/

theorem stopping_submit (job : Job σ α) : (c.submit job).2.stopping = c.stopping := by
  unfold Crew.submit
  split <;> rfl

theorem Moved.same (h : Moved i c c') :
    c'.stopping = c.stopping ∧ c'.workers.length = c.workers.length := by
  cases h <;> simp

/-- A crew is being dissolved from its first stop on. -/
theorem stopping_after : (after threads shared acts).stopping = true ↔ .stop ∈ acts := by
  induction acts using List.reverseRecOn with
  | nil => simp [after, new]
  | append_singleton acts act ih =>
    rw [after_snoc, List.mem_append, ← ih, List.mem_singleton]
    cases act with
    | submit job => simp [Act.apply, stopping_submit]
    | stop => simp [Act.apply, stop]
    | move i => simp [Act.apply, (moved i _).same.1]
    | beside f => simp [Act.apply]

theorem threads_after : (after threads shared acts).threads = max 1 threads := by
  induction acts using List.reverseRecOn with
  | nil => simp [after, new, Crew.threads]
  | append_singleton acts act ih =>
    rw [after_snoc, ← ih]
    cases act with
    | submit job =>
      unfold Act.apply Crew.submit
      dsimp only
      split <;> rfl
    | stop => rfl
    | move i => exact (moved i _).same.2
    | beside f => rfl

/-- Only a worker that leaves is left afterwards, and it leaves when there is nothing more to do. -/
theorem done_of_left (hbefore : c.workers[i]? ≠ some .left)
    (hafter : (act.apply c).workers[i]? = some .left) :
    act = .move i ∧ c.stopping = true ∧ c.queue = [] := by
  cases act with
  | submit job =>
    have hsame : (c.submit job).2.workers = c.workers := by
      unfold Crew.submit
      split <;> rfl
    rw [Act.apply, hsame] at hafter
    exact absurd hafter hbefore
  | stop => exact absurd hafter hbefore
  | beside f => exact absurd hafter hbefore
  | move j =>
    have hmove := moved j c
    rw [Act.apply] at hafter
    generalize c.move j = c' at hmove hafter
    -- the other workers stay as they are, and only one that is idle can leave
    have hself {w : Worker σ α} (hw : w ≠ .left) (hset : (c.workers.set j w)[i]? = some .left) :
        False := by
      by_cases hij : j = i
      · subst hij
        obtain ⟨hlt, hget⟩ := List.getElem?_eq_some_iff.1 hset
        rw [List.getElem_set_self] at hget
        exact hw hget
      · rw [List.getElem?_set_ne hij] at hset
        exact hbefore hset
    cases hmove with
    | takes id job queue hidle hqueue => exact absurd hafter (hself nofun)
    | leaves hidle hqueue hstop =>
      by_cases hij : j = i
      · exact ⟨by rw [hij], hstop, hqueue⟩
      · rw [List.getElem?_set_ne hij] at hafter
        exact absurd hafter hbefore
    | handsIn id a hbusy => exact absurd hafter (hself nofun)
    | goesOn id ready update next hbusy hready => exact absurd hafter (hself nofun)
    | rests => exact absurd hafter hbefore

/-- A crew is dissolved when all have left. -/
theorem left_of_dissolved (h : c.dissolved = true) {w : Worker σ α} (hw : w ∈ c.workers) :
    w = .left := by
  have hall := List.all_eq_true.1 h w hw
  cases w with
  | idle => cases hall
  | busy id job => cases hall
  | left => rfl

/-- Once all workers have left, no job waits and none is under way. -/
theorem Ledger.of_dissolved (h : Ledger came went c) (hworkers : c.workers ≠ [])
    (hd : c.dissolved = true) : went = came ∧ underWay c.workers = [] := by
  obtain ⟨w, hw⟩ := List.exists_mem_of_ne_nil c.workers hworkers
  have hleft : Worker.left ∈ c.workers := left_of_dissolved hd hw ▸ hw
  refine ⟨?_, ?_⟩
  · rw [h.queued, (h.left hleft).2, List.append_nil]
  · refine List.filterMap_eq_nil_iff.2 ?_
    intro w hw
    rw [left_of_dissolved hd hw]
    rfl

theorem result?_of_mem {id : ℕ} (h : id ∈ c.results.map Prod.fst) :
    ∃ a, c.result? id = some a ∧ (id, a) ∈ c.results := by
  obtain ⟨y, hy, rfl⟩ := List.mem_map.1 h
  have hsome : (c.results.find? (·.1 == y.1)).isSome = true :=
    List.find?_isSome.2 ⟨y, hy, beq_self_eq_true y.1⟩
  obtain ⟨x, hx⟩ := Option.isSome_iff_exists.1 hsome
  have hkey : x.1 = y.1 := by simpa using List.find?_some hx
  refine ⟨x.2, ?_, ?_⟩
  · rw [result?, hx, Option.map_some]
  · rw [← hkey]
    exact List.mem_of_find?_eq_some hx

/-- **Every accepted job is done once, in order, before the crew is gone.** Whatever happens to a crew
and in which order: the jobs taken are the first of those accepted, in the order of acceptance, and none
is taken twice. A job is refused, and nothing else happens, exactly when the crew has been stopped. A
worker leaves only after that, and only when no job waits. When all have left, each accepted job has
been done, once, and its result is what the job itself came to. -/
theorem jobs_done_once_in_order (threads : ℕ) (shared : σ) (acts : List (Act σ α)) :
    (accepted threads shared acts =
      taken threads shared acts ++ (after threads shared acts).queue ∧
    (accepted threads shared acts).map Prod.fst = List.range (after threads shared acts).next ∧
    ((taken threads shared acts).map Prod.fst).Nodup) ∧
    (∀ job, (Act.stop ∈ acts →
        (after threads shared acts).submit job = (.error .stopped, after threads shared acts)) ∧
      (Act.stop ∉ acts → ((after threads shared acts).submit job).1 =
        .ok (after threads shared acts).next)) ∧
    (∀ (act : Act σ α) (i : ℕ), (after threads shared acts).workers[i]? ≠ some .left →
      (act.apply (after threads shared acts)).workers[i]? = some .left →
        Act.stop ∈ acts ∧ (after threads shared acts).queue = []) ∧
    ((after threads shared acts).threads = max 1 threads ∧
    ((after threads shared acts).dissolved = true →
      ((after threads shared acts).results.map Prod.fst).Perm
        ((accepted threads shared acts).map Prod.fst) ∧
      ∀ x ∈ accepted threads shared acts, ∃ a,
        (after threads shared acts).result? x.1 = some a ∧ x.2.Reaches (.done a))) := by
  have h := ledger_after threads shared acts
  have hthreads : (after threads shared acts).threads = max 1 threads := threads_after
  have hunique : ((accepted threads shared acts).map Prod.fst).Nodup := by
    rw [h.numbered]
    exact List.nodup_range
  refine ⟨⟨h.queued, h.numbered, ?_⟩, ?_, ?_, hthreads, ?_⟩
  · rw [h.queued, List.map_append] at hunique
    exact (List.nodup_append.1 hunique).1
  · intro job
    refine ⟨?_, ?_⟩
    · intro hstop
      rw [submit, if_pos (stopping_after.2 hstop)]
    · intro hstop
      rw [submit, if_neg (mt stopping_after.1 hstop)]
  · intro act i hbefore hafter
    obtain ⟨_, hstop, hqueue⟩ := done_of_left hbefore hafter
    exact ⟨stopping_after.1 hstop, hqueue⟩
  · intro hd
    have hworkers : (after threads shared acts).workers ≠ [] := by
      apply List.ne_nil_of_length_pos
      change 0 < (after threads shared acts).threads
      omega
    obtain ⟨hall, hway⟩ := h.of_dissolved hworkers hd
    have hplaced := h.placed
    rw [hall, hway, List.map_nil, List.append_nil] at hplaced
    refine ⟨hplaced, ?_⟩
    intro x hx
    have hid : x.1 ∈ (after threads shared acts).results.map Prod.fst :=
      hplaced.symm.subset (List.mem_map_of_mem hx)
    obtain ⟨a, ha, hmem⟩ := result?_of_mem hid
    -- the number of a job tells which one it is
    obtain ⟨job, hjob, hreach⟩ := h.done (x.1, a) hmem
    have hsame : (x.1, job) = x := List.inj_on_of_nodup_map hunique (hall ▸ hjob) hx rfl
    refine ⟨a, ha, ?_⟩
    rw [← hsame]
    exact hreach

def throwing : List (Act ℕ (Except Unit ℕ)) :=
  [.submit (pure (.ok 1)), .submit (pure (.error ())), .submit (.atomic fun s => (.ok s, s + 1)),
    .move 1, .move 0, .stop, .submit (pure (.ok 9)), .move 0, .move 0, .move 1, .move 1, .move 0,
    .move 0, .move 0]

/-- Two workers, three jobs of which one throws, and a fourth that comes too late. -/
theorem jobs_done_once_in_order_of_throwing :
    (after 2 7 throwing).dissolved = true ∧ Act.stop ∈ throwing ∧
    ((after 2 7 throwing).results.map Prod.fst).Perm ((accepted 2 7 throwing).map Prod.fst) ∧
    (accepted 2 7 throwing).map Prod.fst = [0, 1, 2] ∧
    ((after 2 7 throwing).submit (pure (.ok 9))).1 = .error .stopped := by
  have hstop : Act.stop ∈ throwing := by simp [throwing]
  have h := jobs_done_once_in_order 2 7 throwing
  refine ⟨by decide, hstop, (h.2.2.2.2 (by decide)).1, by decide, ?_⟩
  rw [(h.2.1 _).1 hstop]

end Crew

end GpuTelemetry
