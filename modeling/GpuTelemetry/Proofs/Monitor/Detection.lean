import GpuTelemetry.Proofs.Monitor.Stages
import Mathlib.Tactic.ByContra
/-!
Detections among operations that run at the same time. Whatever the order of their steps, the log of
them shows that nothing but an explicit detection makes a second pass over the registry, and that what
the passes find is published in the order in which they ran.
-/

namespace GpuTelemetry.Monitor

variable {β σ α : Type}

abbrev Log (β σ : Type) := List (Marked.Entry Mark (Shared β σ))

def Mark.pass? : Mark → Option Bool
  | .begins implicit => some implicit
  | _ => none

def Mark.publication? : Mark → Option Bool
  | .publishes implicit _ => some implicit
  | _ => none

def passes (log : Log β σ) : List (ℕ × Bool) := log.filterMap fun e => e.mark.pass?.map (e.who, ·)

def publications (log : Log β σ) : List (ℕ × Bool) :=
  log.filterMap fun e => e.mark.publication?.map (e.who, ·)

def Operation.detects : Operation → Bool
  | .call .detectAll => true
  | _ => false

def Mark.detects (mark : Mark) : Bool := mark.pass? = some false

section Log

variable {log : Log β σ} {jobs : ℕ → Marked Mark (Shared β σ) α} {job : Marked Mark (Shared β σ) α}
  {stages : ℕ → Stage} {st : Stage} {mark : Mark} {w w' : Shared β σ} {i : ℕ}

structure Staged (jobs : ℕ → Marked Mark (Shared β σ) α) (w : Shared β σ) (stages : ℕ → Stage) :
    Prop where
  follows : ∀ i, Follows (jobs i) (stages i) fun _ st => st.Free
  fits : ∀ i, (stages i).Fits w
  alone : ∀ i j, ¬ (stages i).Free → ¬ (stages j).Free → i = j

/-- A step of one job takes it to its next stage, and all others stay where they are. -/
theorem Staged.step (h : Staged jobs w stages) (hstep : Steps w w' mark (stages i) st)
    (hjob : Follows job st fun _ st => st.Free) :
    Staged (Function.update jobs i job) w' (Function.update stages i st) where
  follows j := by
    rcases eq_or_ne j i with rfl | hj
    · simpa using hjob
    · simpa [hj] using h.follows j
  fits := by
    refine (Function.forall_update_iff stages fun _ st => st.Fits w').2
      ⟨hstep.fits (h.fits i), fun j hj => hstep.fits_other (h.fits j) fun hlocked => ?_⟩
    by_contra hilocked
    exact hj (h.alone j i hlocked hilocked)
  alone := by
    -- a job comes under the lock only while no other one is
    refine alone_update (fun st : Stage => ¬ st.Free) h.alone fun hst j hj hlocked => ?_
    by_cases hfree : (stages i).Free
    · have hdetecting := (h.fits j).detecting hlocked
      rw [hstep.unlocked hfree hst] at hdetecting
      cases hdetecting
    · exact hj (h.alone j i hlocked hfree)

structure Recorded (log : Log β σ) (w : Shared β σ) (stages : ℕ → Stage) : Prop where
  steps : ∀ e ∈ log, ∃ st st', st.Fits e.before ∧ Steps e.before e.after e.mark st st'
  lasting : log.Pairwise fun e e' => e.before.monitor.inventory.initialized = true →
    e'.before.monitor.inventory.initialized = true
  initialized : ∀ e ∈ log, e.before.monitor.inventory.initialized = true →
    w.monitor.inventory.initialized = true
  /-- What a pass finds is published before the next one begins. -/
  inOrder : ∃ current, passes log = publications log ++ current ∧ current.length ≤ 1 ∧
    ∀ i implicit, stages i = .passing implicit ↔ (i, implicit) ∈ current
  blank : w.monitor.inventory.initialized = false → publications log = []
  kinds : ∃ n m, n ≤ 1 ∧
    (passes log).map Prod.snd = List.replicate n true ++ List.replicate m false

theorem recorded_start (w : Shared β σ) (hidle : ∀ i, stages i = .idle) :
    Recorded [] w stages where
  steps e he := absurd he List.not_mem_nil
  lasting := List.Pairwise.nil
  initialized e he := absurd he List.not_mem_nil
  inOrder := ⟨[], rfl, Nat.zero_le 1, fun i implicit => by simp [hidle i]⟩
  blank _ := rfl
  kinds := ⟨0, 0, Nat.zero_le 1, rfl⟩

/-- A step begins a pass, publishes one, or has nothing to do with passes. -/
theorem Steps.cases_pass {st' : Stage} (h : Steps w w' mark st st') :
    (∃ implicit, mark = .begins implicit ∧ st = .before implicit ∧ st' = .passing implicit) ∨
    (∃ implicit found, mark = .publishes implicit found ∧ st = .passing implicit ∧ st' = .stored) ∨
    (mark.pass? = none ∧ mark.publication? = none ∧
      ∀ implicit, st' = .passing implicit ↔ st = .passing implicit) := by
  cases h with
  | begins implicit => exact Or.inl ⟨implicit, rfl, rfl, rfl⟩
  | publishes implicit found => exact Or.inr (Or.inl ⟨implicit, found, rfl, rfl, rfl⟩)
  | aside st hst | misses st hst | locks st hst | finds st hst =>
    refine Or.inr (Or.inr ⟨rfl, rfl, fun implicit => ?_⟩)
    rcases hst with rfl | rfl
    · simp
    · simp
  | uses | findsLocked | missesLocked | passes | unlocks =>
    exact Or.inr (Or.inr ⟨rfl, rfl, fun implicit => by simp⟩)

theorem passes_snoc (e : Marked.Entry Mark (Shared β σ)) :
    passes (log ++ [e]) = passes log ++ (e.mark.pass?.map (e.who, ·)).toList := by
  cases h : e.mark.pass? <;> simp [passes, h]

theorem publications_snoc (e : Marked.Entry Mark (Shared β σ)) :
    publications (log ++ [e]) = publications log ++ (e.mark.publication?.map (e.who, ·)).toList := by
  cases h : e.mark.publication? <;> simp [publications, h]

theorem Staged.eq_of_passing (h : Staged jobs w stages) {j : ℕ} {implicit : Bool}
    (hi : ¬ (stages i).Free) (hj : stages j = .passing implicit) : j = i := by
  refine h.alone j i ?_ hi
  rw [hj]
  simp [Stage.Free]

/-- Where a pass may begin, none is under way. -/
theorem Staged.eq_nil_of_before (h : Staged jobs w stages) {implicit : Bool}
    (hbefore : stages i = .before implicit) {current : List (ℕ × Bool)}
    (hcurrent : ∀ j implicit, stages j = .passing implicit ↔ (j, implicit) ∈ current) :
    current = [] := by
  refine List.eq_nil_iff_forall_not_mem.2 fun x hx => ?_
  have hpassing := (hcurrent x.1 x.2).2 hx
  obtain rfl := h.eq_of_passing (hbefore ▸ not_free_before implicit) hpassing
  rw [hbefore] at hpassing
  cases implicit with
  | true => cases hpassing
  | false => cases hpassing

/-- A pass that begins is the only one under way. -/
theorem Staged.passing_of_begins (h : Staged jobs w stages) {implicit : Bool}
    (hbefore : stages i = .before implicit) (j : ℕ) (implicit' : Bool) :
    Function.update stages i (.passing implicit) j = .passing implicit' ↔
      (j, implicit') ∈ [(i, implicit)] := by
  rcases eq_or_ne j i with rfl | hj
  · simp [eq_comm]
  · rw [Function.update_of_ne hj]
    refine ⟨fun hpassing => ?_, fun hmem => ?_⟩
    · exact absurd (h.eq_of_passing (hbefore ▸ not_free_before implicit) hpassing) hj
    · rw [List.mem_singleton] at hmem
      exact absurd (congrArg Prod.fst hmem) hj

/-- After a publication no pass is under way. -/
theorem Staged.not_passing_of_publishes (h : Staged jobs w stages) {implicit : Bool}
    (hpassing : stages i = .passing implicit) (j : ℕ) (implicit' : Bool) :
    Function.update stages i .stored j ≠ .passing implicit' := by
  have hlocked : ¬ (stages i).Free := by
    rw [hpassing]
    simp [Stage.Free]
  rcases eq_or_ne j i with rfl | hj
  · simp
  · rw [Function.update_of_ne hj]
    exact fun hother => hj (h.eq_of_passing hlocked hother)

/-- A step that is neither leaves under way what was. -/
theorem passing_of_neither (hst : ∀ implicit, st = .passing implicit ↔ stages i = .passing implicit)
    (j : ℕ) (implicit : Bool) :
    Function.update stages i st j = .passing implicit ↔ stages j = .passing implicit := by
  rcases eq_or_ne j i with rfl | hj
  · rw [Function.update_self]
    exact hst implicit
  · rw [Function.update_of_ne hj]

/-- A step begins a pass while none is under way, publishes the one that is, or does neither. -/
theorem Recorded.inOrder_step (hs : Staged jobs w stages) (h : Recorded log w stages)
    (hstep : Steps w w' mark (stages i) st) :
    ∃ current, passes (log ++ [⟨i, mark, w, w'⟩]) =
        publications (log ++ [⟨i, mark, w, w'⟩]) ++ current ∧ current.length ≤ 1 ∧
      ∀ j implicit, Function.update stages i st j = .passing implicit ↔ (j, implicit) ∈ current := by
  -- `current` is the pass under way, if there is one; the lock says that nobody else is at one
  obtain ⟨current, horder, hone, hcurrent⟩ := h.inOrder
  rw [passes_snoc, publications_snoc, horder]
  rcases hstep.cases_pass with ⟨implicit, rfl, hbefore, rfl⟩ | ⟨implicit, found, rfl, hpassing, rfl⟩ |
    ⟨hpass, hpublication, hst⟩
  · have hempty : current = [] := hs.eq_nil_of_before hbefore hcurrent
    refine ⟨[(i, implicit)], ?_, Nat.le_refl 1, hs.passing_of_begins hbefore⟩
    simp [hempty, Mark.pass?, Mark.publication?]
  · have hmem := (hcurrent i implicit).1 hpassing
    obtain ⟨x, rfl⟩ := List.length_eq_one_iff.1 (Nat.le_antisymm hone (List.length_pos_of_mem hmem))
    obtain rfl := List.mem_singleton.1 hmem
    refine ⟨[], ?_, Nat.zero_le 1, fun j implicit' => ?_⟩
    · simp [Mark.pass?, Mark.publication?]
    · exact iff_of_false (hs.not_passing_of_publishes hpassing j implicit') List.not_mem_nil
  · refine ⟨current, ?_, hone, fun j implicit => ?_⟩
    · simp [hpass, hpublication]
    · exact (passing_of_neither hst j implicit).trans (hcurrent j implicit)

/-- As long as nothing is stored nothing has been published. -/
theorem Recorded.blank_step (h : Recorded log w stages) (hfits : (stages i).Fits w)
    (hstep : Steps w w' mark (stages i) st) (hi : w'.monitor.inventory.initialized = false) :
    publications (log ++ [⟨i, mark, w, w'⟩]) = [] := by
  have hbefore : w.monitor.inventory.initialized = false := by
    refine Bool.eq_false_iff.2 fun hw => ?_
    rw [hstep.initialized hw] at hi
    cases hi
  rw [publications_snoc, h.blank hbefore]
  rcases hstep.cases_pass with ⟨implicit, rfl, _⟩ | ⟨implicit, found, rfl, hpassing, rfl⟩ |
    ⟨_, hpublication, _⟩
  · rfl
  · -- after a publication a detection is stored
    have hstored := (hstep.fits hfits).2
    rw [hi] at hstored
    cases hstored
  · simp [hpublication]

/-- At most one pass is implicit, and it is the first one. -/
theorem Recorded.kinds_step (hs : Staged jobs w stages) (h : Recorded log w stages)
    (hstep : Steps w w' mark (stages i) st) :
    ∃ n m, n ≤ 1 ∧ (passes (log ++ [⟨i, mark, w, w'⟩])).map Prod.snd =
      List.replicate n true ++ List.replicate m false := by
  obtain ⟨n, m, hn, hkinds⟩ := h.kinds
  rw [passes_snoc, List.map_append, hkinds]
  rcases hstep.cases_pass with ⟨implicit, rfl, hbefore, rfl⟩ | ⟨implicit, found, rfl, _⟩ |
    ⟨hpass, _⟩
  · cases implicit with
    | true =>
      -- an implicit pass begins only where none has been published, nor is another one under way
      obtain ⟨current, horder, _, hcurrent⟩ := h.inOrder
      have hmissing : (Stage.before true).Fits w := hbefore ▸ hs.fits i
      rw [hs.eq_nil_of_before hbefore hcurrent, h.blank hmissing.2] at horder
      rw [horder] at hkinds
      refine ⟨1, 0, Nat.le_refl 1, ?_⟩
      rw [← hkinds]
      rfl
    | false =>
      refine ⟨n, m + 1, hn, ?_⟩
      rw [List.replicate_succ', ← List.append_assoc]
      rfl
  · exact ⟨n, m, hn, by simp [Mark.pass?]⟩
  · exact ⟨n, m, hn, by simp [hpass]⟩

/-- One more step is recorded. -/
theorem Recorded.step (hs : Staged jobs w stages) (h : Recorded log w stages)
    (hstep : Steps w w' mark (stages i) st) :
    Recorded (log ++ [⟨i, mark, w, w'⟩]) w' (Function.update stages i st) where
  steps e he := by
    rcases List.mem_append.1 he with he | he
    · exact h.steps e he
    · rw [List.mem_singleton.1 he]
      exact ⟨stages i, st, hs.fits i, hstep⟩
  lasting := by
    refine List.pairwise_append.2 ⟨h.lasting, List.pairwise_singleton _ _, fun e he e' he' => ?_⟩
    rw [List.mem_singleton.1 he']
    exact h.initialized e he
  initialized e he hi := by
    rcases List.mem_append.1 he with he | he
    · exact hstep.initialized (h.initialized e he hi)
    · rw [List.mem_singleton.1 he] at hi
      exact hstep.initialized hi
  inOrder := h.inOrder_step hs hstep
  blank := h.blank_step (hs.fits i) hstep
  kinds := h.kinds_step hs hstep

/-- An implicit pass begins only while nothing has been stored. -/
theorem Recorded.blank_of_implicit (h : Recorded log w stages)
    {earlier later : List (Marked.Entry Mark (Shared β σ))} {e e' : Marked.Entry Mark (Shared β σ)}
    (hlog : log = earlier ++ e :: later) (hbegins : e.mark = .begins true) (he' : e' ∈ earlier ++ [e]) :
    e'.before.monitor.inventory.initialized = false := by
  have hmem : e ∈ log := by rw [hlog]; simp
  obtain ⟨st, st', hfits, hstep⟩ := h.steps e hmem
  rw [hbegins] at hstep
  have hmissing : e.before.monitor.inventory.initialized = false := by
    cases hstep with
    | begins => exact hfits.2
  rcases List.mem_append.1 he' with he' | he'
  -- had one been stored earlier, it would be stored still
  · have hlasting := h.lasting
    rw [hlog] at hlasting
    have hlater := (List.pairwise_append.1 hlasting).2.2 e' he' e (by simp)
    refine Bool.eq_false_iff.2 fun hi => ?_
    rw [hlater hi] at hmissing
    cases hmissing
  · rw [List.mem_singleton.1 he']
    exact hmissing

/-- Who uses the devices has seen that they are stored. -/
theorem Recorded.initialized_of_uses (h : Recorded log w stages)
    {e : Marked.Entry Mark (Shared β σ)} (he : e ∈ log) (huses : e.mark = .uses) :
    e.before.monitor.inventory.initialized = true := by
  obtain ⟨st, st', hfits, hstep⟩ := h.steps e he
  rw [huses] at hstep
  cases hstep with
  | uses _ => exact hfits

/-- Every log is a record of the stages. -/
theorem staged_of_logs {jobs' : ℕ → Marked Mark (Shared β σ) α}
    (hjobs : ∀ i, Follows (jobs i) .idle fun _ st => st.Free)
    (h : Marked.Logs jobs w log jobs' w') :
    ∃ stages, Staged jobs' w' stages ∧ Recorded log w' stages := by
  induction h with
  | start =>
    refine ⟨fun _ => .idle, ⟨hjobs, fun _ => trivial, ?_⟩, recorded_start w fun _ => rfl⟩
    exact fun i j hi => absurd (Or.inl rfl) hi
  | @step log jobs' w' w'' i mark job _ hnext ih =>
    obtain ⟨stages, hstaged, hrecorded⟩ := ih
    have hfollows := hstaged.follows i
    obtain ⟨ready, update, next, hjob, hready, rfl, rfl⟩ := Marked.next?_eq_some hnext
    rw [hjob] at hfollows
    obtain ⟨st, hstep, hnextjob⟩ := hfollows w' (hstaged.fits i) hready
    exact ⟨_, hstaged.step hstep hnextjob, hrecorded.step hstaged hstep⟩

/-- The logs are those of the interleavings. -/
theorem interleaves_iff_logs {jobs' : ℕ → Job (Shared β σ) α} :
    Interleaves (fun i => (jobs i).job) w jobs' w' ↔
      ∃ log marked, Marked.Logs jobs w log marked w' ∧ (fun i => (marked i).job) = jobs' := by
  constructor
  · intro h
    induction h with
    | start => exact ⟨[], jobs, .start, rfl⟩
    | @step jobs' w' w'' i job _ hnext ih =>
      obtain ⟨log, marked, hlogs, rfl⟩ := ih
      rw [Marked.next?_job] at hnext
      obtain ⟨⟨mark, m, v⟩, hm, heq⟩ := Option.map_eq_some_iff.1 hnext
      cases heq
      exact ⟨_, _, hlogs.step hm, Function.comp_update Marked.job marked i m⟩
  · rintro ⟨log, marked, h, rfl⟩
    induction h with
    | start => exact .start
    | @step log jobs' w' w'' i mark job _ hnext ih =>
      -- a marked step forgets its mark
      have hjob : (jobs' i).job.next? w' = some (job.job, w'') := by
        rw [Marked.next?_job, hnext, Option.map_some]
      have hupdate : (fun j => (Function.update jobs' i job j).job) =
          Function.update (fun j => (jobs' j).job) i job.job := Function.comp_update Marked.job jobs' i job
      rw [hupdate]
      exact ih.step hjob

/-- The passes that one caller has asked for are counted by their marks. -/
theorem count_passes (i : ℕ) : (passes log).count (i, false) =
    log.countP fun e => e.who = i ∧ e.mark.detects = true := by
  rw [List.count, passes, List.countP_filterMap]
  refine List.countP_congr fun e _ => ?_
  cases h : e.mark.pass? <;> simp [Mark.detects, h]

end Log

/-! ### Passes that were asked for -/

section Passes

theorem has_markedExclusively {α : Type} {m : Marked Mark (Shared β σ) α} {n : ℕ}
    (h : m.Has Mark.detects n) : (markedExclusively m).Has Mark.detects n := by
  have hleave (a : α) : (Marked.all .unlocks Shared.leaveDetection >>= fun _ => pure a :
      Marked Mark (Shared β σ) α).Has Mark.detects 0 :=
    Marked.has_bind (k := 0) (Marked.has_all rfl _) fun _ => Marked.has_pure a
  have hsection := Marked.has_bind h hleave
  have henter : (Marked.all .locks Shared.enterDetection : Marked Mark (Shared β σ) Unit).Has
      Mark.detects 0 := Marked.has_all rfl _
  have hall := Marked.has_bind henter fun _ => hsection
  rw [Nat.zero_add] at hall
  exact hall

variable [BackendCalls β (Job (Shared β σ))] [Surroundings σ]

theorem has_pass (implicit : Bool) :
    (Marked.lead (.begins implicit) .passes runDetection : Marked Mark (Shared β σ) (List Reading)).Has
      Mark.detects (!implicit).toNat := by
  refine ⟨0, ?_, fun w => Marked.has_all rfl _⟩
  cases implicit with
  | true => rfl
  | false => rfl

theorem has_markedEnsureDetected :
    (markedEnsureDetected : Marked Mark (Shared β σ) Unit).Has Mark.detects 0 := by
  have hlook (mark : Mark) (hmark : mark.detects = false) :
      (Marked.all mark isInitialized : Marked Mark (Shared β σ) Bool).Has Mark.detects 0 :=
    Marked.has_all hmark _
  have hfirst : (markedFirst : Marked Mark (Shared β σ) Unit).Has Mark.detects 0 := by
    refine Marked.has_bind (n := 0) (hlook .looks rfl) fun stored => ?_
    cases stored with
    | true => exact Marked.has_pure ()
    | false => exact Marked.has_bind (has_pass true) fun found => Marked.has_all rfl _
  refine Marked.has_bind (n := 0) (hlook .checks rfl) fun stored => ?_
  cases stored with
  | true => exact Marked.has_pure ()
  | false => exact has_markedExclusively hfirst

/-- A detection that is asked for makes one pass, and nothing else makes such a pass. -/
theorem has_marked (op : Operation) :
    (op.marked : Marked Mark (Shared β σ) Unit).Has Mark.detects op.detects.toNat := by
  have hdetectAll : (markedDetectAll : Marked Mark (Shared β σ) ℕ).Has Mark.detects 1 :=
    has_markedExclusively (Marked.has_bind (has_pass false) fun found => Marked.has_all rfl _)
  have hready (op : Operation) : (markedEnsureDetected >>= fun _ => Marked.all .uses op.afterwards :
      Marked Mark (Shared β σ) Unit).Has Mark.detects 0 :=
    Marked.has_bind has_markedEnsureDetected fun _ => Marked.has_all rfl _
  cases op with
  | call c =>
    cases c with
    | detectAll => exact Marked.has_bind hdetectAll fun _ => Marked.has_pure ()
    | cached | cachedPrimary | refresh | refreshPrimary | refreshAll | setPrimary | device | devices =>
      exact hready _
  | reread | cacheStats => exact Marked.has_all rfl _
  | snapshot | count | primaryIndex => exact hready _

/-- A sequence of operations begins one pass for each detection it asks for. -/
theorem has_markedOperate (ops : List Operation) :
    (markedOperate ops : Marked Mark (Shared β σ) Unit).Has Mark.detects
      (ops.countP Operation.detects) := by
  induction ops with
  | nil => rfl
  | cons op ops ih =>
    have hcount : (op :: ops).countP Operation.detects =
        op.detects.toNat + ops.countP Operation.detects := by
      cases h : op.detects with
      | true => simp [h, Nat.add_comm]
      | false => simp [h]
    rw [hcount]
    exact Marked.has_bind (has_marked op) fun _ => ih

end Passes

/-- What is seen of detections in the log of some operations, of which `rest` is what is left to do. -/
structure Orderly (ops : ℕ → List Operation) (log : Log β σ)
    (rest : ℕ → Marked Mark (Shared β σ) Unit) : Prop where
  /-- No more than the first pass is implicit. -/
  once : ∃ n m, n ≤ 1 ∧
    (passes log).map Prod.snd = List.replicate n true ++ List.replicate m false
  /-- The others were asked for, one by one. -/
  asked : ∀ i, (passes log).count (i, false) ≤ (ops i).countP Operation.detects
  finished : ∀ i u, rest i = .done u → (passes log).count (i, false) = (ops i).countP Operation.detects
  /-- An implicit pass begins only if nothing has been stored. -/
  blank : ∀ earlier e later, log = earlier ++ e :: later → e.mark = .begins true →
    ∀ e' ∈ earlier ++ [e], e'.before.monitor.inventory.initialized = false
  /-- Who has made sure of a detection finds one stored. -/
  stored : ∀ e ∈ log, e.mark = .uses → e.before.monitor.inventory.initialized = true
  /-- At any time all passes are published, in order, but one that may be under way. -/
  inOrder : ∀ earlier later, log = earlier ++ later →
    ∃ current, passes earlier = publications earlier ++ current ∧ current.length ≤ 1
  /-- The collection is replaced by what a pass has found when that is published, -/
  replaced : ∀ e ∈ log, ∀ implicit found, e.mark = .publishes implicit found →
    e.after.monitor.inventory = e.before.monitor.inventory.replace found
  /-- and by nothing else. -/
  kept : ∀ e ∈ log, (∀ implicit found, e.mark ≠ .publishes implicit found) →
    Touched e.before.monitor.inventory e.after.monitor.inventory

/-- **Detection runs once and in order.** Any number of callers make any operations, and their steps
interleave; the logs of that are the logs of what they do. All of them show that no more than one pass
over the registry is implicit, that the others were asked for, and that what the passes find is stored
before anybody uses it and published in the order in which they ran. -/
theorem detections_in_order [BackendCalls β (Job (Shared β σ))] [Surroundings σ] (hb : Aloof β σ)
    (reg : Registry β) (policy : Cache.Policy) (o : σ) (ops : ℕ → List Operation) :
    (∀ jobs w, Interleaves (fun i => operate (ops i)) { monitor := new reg policy, outside := o } jobs w ↔
      ∃ log rest, Marked.Logs (fun i => markedOperate (ops i))
        { monitor := new reg policy, outside := o } log rest w ∧ (fun i => (rest i).job) = jobs) ∧
    ∀ log rest w, Marked.Logs (fun i => markedOperate (ops i))
      { monitor := new reg policy, outside := o } log rest w → Orderly ops log rest := by
  have hmarked : (fun i => operate (ops i)) =
      fun i => (markedOperate (ops i) : Marked Mark (Shared β σ) Unit).job :=
    funext fun i => (job_markedOperate (ops i)).symm
  have hfollows (i : ℕ) : Follows (markedOperate (ops i) : Marked Mark (Shared β σ) Unit) .idle
      fun _ st => st.Free :=
    follows_markedOperate hb (ops i) (Or.inl rfl)
  refine ⟨fun jobs w => ?_, fun log rest w hlogs => ?_⟩
  · rw [hmarked]
    exact interleaves_iff_logs
  obtain ⟨stages, _, hrecorded⟩ := staged_of_logs hfollows hlogs
  -- the passes that a caller has still to ask for make up the difference
  have hasked (i : ℕ) : ∃ n, (rest i).Has Mark.detects n ∧
      (ops i).countP Operation.detects = (passes log).count (i, false) + n := by
    rw [count_passes]
    exact hlogs.has (fun i => has_markedOperate (ops i)) i
  refine ⟨hrecorded.kinds, fun i => ?_, fun i u hdone => ?_, ?_, ?_, ?_, fun e he => ?_, fun e he => ?_⟩
  · obtain ⟨n, _, htotal⟩ := hasked i
    omega
  · obtain ⟨n, hrest, htotal⟩ := hasked i
    rw [hdone] at hrest
    obtain rfl : n = 0 := hrest
    omega
  · exact fun earlier e later hlog hbegins e' he' => hrecorded.blank_of_implicit hlog hbegins he'
  · exact fun e he huses => hrecorded.initialized_of_uses he huses
  · rintro earlier later rfl
    -- a part of the log is the log of a shorter run
    obtain ⟨rest₁, w₁, hearlier⟩ := hlogs.of_append
    obtain ⟨_, _, hrecorded₁⟩ := staged_of_logs hfollows hearlier
    obtain ⟨current, horder, hone, _⟩ := hrecorded₁.inOrder
    exact ⟨current, horder, hone⟩
  · intro implicit found hmark
    obtain ⟨st, st', _, hstep⟩ := hrecorded.steps e he
    rw [hmark] at hstep
    exact hstep.replaces
  · obtain ⟨st, st', _, hstep⟩ := hrecorded.steps e he
    exact hstep.touched

theorem aloof_of_outside [BackendCalls β (StateM σ)] : Aloof β σ where
  name _ := always_onOutside
  detect _ := always_onOutside
  refresh _ _ := always_onOutside

def detectsTwice : ℕ → List Operation
  | 0 => [.call (.cached 0), .call .detectAll, .call .cachedPrimary]
  | _ => []

/-- One caller makes a query, detects again and makes another query, and nobody else does anything. -/
theorem detections_in_order_of_two : ∃ (log : Log StillBackend Instant) (rest : _) (w : _),
    Marked.Logs (fun i => markedOperate (detectsTwice i))
      { monitor := new (stillRegistry .amd [card "a"]) {}, outside := (0 : Instant) } log rest w ∧
    Orderly detectsTwice log rest ∧ (passes log).count (0, false) = 1 := by
  have hends : ((operate (detectsTwice 0) : Job (Shared StillBackend Instant) Unit).run
      { monitor := new (stillRegistry .amd [card "a"]) {}, outside := 0 }).isSome = true := by
    decide +kernel
  obtain ⟨⟨u, w⟩, hrun⟩ := Option.isSome_iff_exists.1 hends
  have hstart : Interleaves
      (fun i => (operate (detectsTwice i) : Job (Shared StillBackend Instant) Unit))
      { monitor := new (stillRegistry .amd [card "a"]) {}, outside := 0 } _ _ := .start
  obtain ⟨jobs, hjobs, hdone⟩ := hstart.run (i := 0) hrun
  obtain ⟨hruns, horderly⟩ := detections_in_order aloof_of_outside (stillRegistry .amd [card "a"]) {}
    (0 : Instant) detectsTwice
  obtain ⟨log, rest, hlog, rfl⟩ := (hruns jobs w).1 hjobs
  have hlogged := horderly log rest w hlog
  refine ⟨log, rest, w, hlog, hlogged, ?_⟩
  cases hrest : rest 0 with
  | done v => exact hlogged.finished 0 v hrest
  | step mark ready update next =>
    dsimp only at hdone
    rw [hrest] at hdone
    cases hdone

end GpuTelemetry.Monitor
