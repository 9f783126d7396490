import GpuTelemetry.Proofs.Job.Marked
import GpuTelemetry.Proofs.Monitor.Visit

namespace GpuTelemetry.Monitor

inductive Mark where
  /-- A step of an operation that needs no detection. -/
  | aside
  /-- The look without the lock. -/
  | checks
  | locks
  /-- The look under the lock. -/
  | looks
  /-- A pass over the registry begins: the implicit one of a query, or one that was asked for. -/
  | begins (implicit : Bool)
  | passes
  | publishes (implicit : Bool) (found : List Reading)
  | unlocks
  /-- A step of an operation that has made sure of a detection. -/
  | uses

variable {β σ α : Type}

section Programs

variable [BackendCalls β (Job (Shared β σ))] [Surroundings σ]

def markedExclusively (m : Marked Mark (Shared β σ) α) : Marked Mark (Shared β σ) α := do
  Marked.all .locks Shared.enterDetection
  let a ← m
  Marked.all .unlocks Shared.leaveDetection
  pure a

def markedFirst : Marked Mark (Shared β σ) Unit := do
  let stored ← Marked.all .looks isInitialized
  if !stored then
    let found ← Marked.lead (.begins true) .passes runDetection
    Marked.all (.publishes true found) (modify (install found))

def markedEnsureDetected : Marked Mark (Shared β σ) Unit := do
  let stored ← Marked.all .checks isInitialized
  if !stored then
    markedExclusively markedFirst

def markedDetectAll : Marked Mark (Shared β σ) ℕ :=
  markedExclusively do
    let found ← Marked.lead (.begins false) .passes runDetection
    Marked.all (.publishes false found)
      (modifyGet fun s => let s := reinstall found s; (s.inventory.size, s))

def Operation.afterwards (op : Operation) : Job (Shared β σ) Unit :=
  match op.query? with
  | some q => discard (q.look >>= fun now => modifyGet (q.opening now) >>= close)
  | none =>
    match op with
    | .call .refreshAll => discard (do
        let s ← get
        let first ← refreshSlots .ok 0 s.inventory.size
        modify clearCache
        pure first)
    | .call (.setPrimary i) => discard (do
        let status ← modifyGet (selectPrimary i)
        if !status.isOk then
          Host.report (unselectableNotice i status)
        pure status)
    | _ => discard (get : Job (Shared β σ) (Monitor β))

def Operation.marked (op : Operation) : Marked Mark (Shared β σ) Unit :=
  match op with
  | .call .detectAll => do
    let _ ← markedDetectAll
    pure ()
  | .reread _ | .cacheStats => Marked.all .aside op.perform
  | _ => do
    markedEnsureDetected
    Marked.all .uses op.afterwards

def markedOperate : List Operation → Marked Mark (Shared β σ) Unit
  | [] => pure ()
  | op :: ops => do
    op.marked
    markedOperate ops

omit [BackendCalls β (Job (Shared β σ))] in
theorem job_markedExclusively (m : Marked Mark (Shared β σ) α) :
    (markedExclusively m).job = Host.exclusively m.job := by
  simp only [markedExclusively, Marked.job_bind, Marked.job_all, Marked.job_pure]
  rfl

theorem job_markedEnsureDetected :
    (markedEnsureDetected : Marked Mark (Shared β σ) Unit).job = ensureDetected := by
  have hfirst : (markedFirst : Marked Mark (Shared β σ) Unit).job = (do
      if !(← isInitialized) then
        let found ← runDetection
        modify (install found)) := by
    simp only [markedFirst, Marked.job_bind, Marked.job_all, Marked.job_lead, apply_ite Marked.job,
      Marked.job_pure]
  rw [ensureDetected, ← hfirst]
  simp only [markedEnsureDetected, Marked.job_bind, Marked.job_all, apply_ite Marked.job,
    Marked.job_pure, job_markedExclusively]

theorem job_markedDetectAll :
    (markedDetectAll : Marked Mark (Shared β σ) ℕ).job = detectAll := by
  simp only [markedDetectAll, job_markedExclusively, Marked.job_bind, Marked.job_all, Marked.job_lead]
  rfl

/-- Without its marks it is the operation itself. -/
theorem job_marked (op : Operation) :
    (op.marked : Marked Mark (Shared β σ) Unit).job = op.perform := by
  have hready {γ : Type} {next : Job (Shared β σ) γ} (hop : op.afterwards = discard next) :
      (markedEnsureDetected >>= fun _ => Marked.all .uses op.afterwards :
        Marked Mark (Shared β σ) Unit).job = discard (ensureDetected >>= fun _ => next) := by
    rw [Marked.job_bind, job_markedEnsureDetected, Job.discard_bind]
    simp only [Marked.job_all, hop]
  have hreply {γ δ : Type} (f : γ → δ) (job : Job (Shared β σ) γ) : discard job = discard (f <$> job) :=
    (Job.discard_map f job).symm
  have hlook {γ : Type} (f : Monitor β → γ) :
      discard (ensureDetected >>= fun _ => get : Job (Shared β σ) (Monitor β)) =
        discard (ensureDetected >>= fun _ => get >>= fun s => pure (f s) : Job (Shared β σ) γ) := by
    rw [Job.discard_bind, Job.discard_bind]
    rfl
  -- every operation but a detection is a detection at need and what comes afterwards
  cases op with
  | call c =>
    cases c with
    | detectAll =>
      have hjob : (Operation.marked (.call .detectAll) : Marked Mark (Shared β σ) Unit).job =
          discard detectAll := by
        rw [Operation.marked, Marked.job_bind, job_markedDetectAll]
        rfl
      exact hjob.trans (hreply _ _)
    | cached i | cachedPrimary | refresh i | refreshPrimary =>
      exact (hready rfl).trans (hreply Reply.ofAnswer _)
    | refreshAll => exact (hready rfl).trans (hreply _ _)
    | setPrimary i => exact (hready rfl).trans (hreply _ _)
    | device i =>
      exact (hready rfl).trans ((hlook fun s => s.inventory.get? i).trans (hreply _ _))
    | devices => exact (hready rfl).trans ((hlook fun s => s.inventory.devices).trans (hreply _ _))
  | snapshot =>
    exact (hready rfl).trans (hreply (fun a : Answer => a.snapshot.getD .sentinel) cachedPrimary)
  | reread r => exact Marked.job_all _ _
  | cacheStats => exact Marked.job_all _ _
  | count => exact (hready rfl).trans (hlook fun s => s.inventory.size)
  | primaryIndex => exact (hready rfl).trans (hlook fun s => s.inventory.primaryIndex)

/-- The marks do nothing. -/
theorem job_markedOperate (ops : List Operation) :
    (markedOperate ops : Marked Mark (Shared β σ) Unit).job = operate ops := by
  induction ops with
  | nil => rfl
  | cons op ops ih => rw [markedOperate, Marked.job_bind, job_marked, ih, operate]

end Programs

/-! ### Steps outside of a detection -/

def Outward (w w' : Shared β σ) : Prop := ∃ o, w' = { w with outside := o }

/-- The collection stays, but for the reading in a slot or the choice of the primary device. -/
inductive Touched (inv : Inventory) : Inventory → Prop
  | same : Touched inv inv
  | sets (i : UInt64) (r : Reading) : Touched inv (inv.set i r)
  | selects (i : UInt64) :
    Touched inv { inv with primaryIndex := i, generation := inv.generation + 1 }

theorem Touched.initialized {inv inv' : Inventory} (h : Touched inv inv') :
    inv'.initialized = inv.initialized := by
  cases h with
  | same => rfl
  | sets i r => rfl
  | selects i => rfl

structure Aside (w w' : Shared β σ) : Prop where
  touched : Touched w.monitor.inventory w'.monitor.inventory
  detecting : w'.detecting = w.detecting

theorem Outward.aside {w w' : Shared β σ} (h : Outward w w') : Aside w w' := by
  obtain ⟨o, rfl⟩ := h
  exact ⟨.same, rfl⟩

section Always

theorem always_onOutside {f : σ → α × σ} :
    (Shared.onOutside f : Job (Shared β σ) α).Always Outward :=
  fun w => ⟨⟨(f w.outside).2, rfl⟩, trivial⟩

/-- A step on the monitor that touches the collection at most. -/
theorem always_touches {f : Monitor β → α × Monitor β}
    (h : ∀ s, Touched s.inventory (f s).2.inventory) :
    (modifyGet f : Job (Shared β σ) α).Always Aside :=
  fun w => ⟨⟨h w.monitor, rfl⟩, trivial⟩

variable [BackendCalls β (Job (Shared β σ))] [Surroundings σ]

variable (β σ) in
/-- Backends act on their surroundings alone, in any number of steps. -/
structure Aloof : Prop where
  name : ∀ b : β, (BackendCalls.name b : Job (Shared β σ) Text).Always Outward
  detect : ∀ b : β, (BackendCalls.detect b [] : Job (Shared β σ) Detection).Always Outward
  refresh : ∀ (b : β) (r : Reading),
    (BackendCalls.refresh b r : Job (Shared β σ) Attempt).Always Outward

variable (hb : Aloof β σ)

include hb

/-- A step that may change the surroundings may be any step of the registry. -/
theorem admits_always {R : Shared β σ → Shared β σ → Prop} (hR : ∀ w w', Outward w w' → R w w') :
    Admits fun α (job : Job (Shared β σ) α) => job.Always R where
  pure _ := trivial
  bind := Job.always_bind
  report _ := always_onOutside.mono hR
  name b := (hb.name b).mono hR
  detect b := (hb.detect b).mono hR
  refresh b r := (hb.refresh b r).mono hR
  get w := ⟨hR _ _ ⟨w.outside, rfl⟩, trivial⟩

theorem admits_aside : Admits fun α (job : Job (Shared β σ) α) => job.Always Aside :=
  admits_always hb fun _ _ => Outward.aside

omit [BackendCalls β (Job (Shared β σ))] hb in
theorem always_now : (Host.now : Job (Shared β σ) Instant).Always Aside :=
  always_onOutside.mono fun _ _ => Outward.aside

theorem always_close (o : Opening) : (close o : Job (Shared β σ) Answer).Always Aside := by
  cases o with
  | answered a => trivial
  | pending p =>
    have hpublish (fresh : Reading) (now : Instant) :
        (modifyGet (publish p fresh now) : Job (Shared β σ) Answer).Always Aside := by
      refine always_touches fun s => ?_
      rcases publish_cases p fresh now s with ⟨_, hpub⟩ | hpub
      · rw [hpub]
        exact .sets p.slot.index fresh
      · rw [hpub]
        exact .same
    -- the registry is asked, and what it returns is published or reported
    refine Job.always_bind ((admits_aside hb).refreshReading p.slot.reading) fun x => ?_
    obtain ⟨status, fresh⟩ := x
    dsimp only
    split
    · exact Job.always_bind always_now fun now => hpublish fresh now
    · exact Job.always_bind ((admits_aside hb).report _) fun _ => trivial

/-- A query has no part in detections. -/
theorem always_query (q : Query) (now : Instant) :
    (modifyGet (q.opening now) >>= close : Job (Shared β σ) Answer).Always Aside := by
  have hopen : (modifyGet (q.opening now) : Job (Shared β σ) Opening).Always Aside := by
    refine always_touches fun s => ?_
    rw [inventory_opening]
    exact .same
  exact Job.always_bind hopen fun o => always_close hb o

theorem always_afterwards (op : Operation) :
    (op.afterwards : Job (Shared β σ) Unit).Always Aside := by
  have hdiscard {α : Type} {job : Job (Shared β σ) α} (h : job.Always Aside) :
      (discard job).Always Aside :=
    Job.always_bind h fun _ => trivial
  have hlook (q : Query) : (q.look : Job (Shared β σ) Instant).Always Aside := by
    cases q with
    | cached i | cachedPrimary => exact always_now
    | refresh i | refreshPrimary => trivial
  have hstore (i : UInt64) (fresh : Reading) :
      (modify (storeSame i fresh) : Job (Shared β σ) PUnit).Always Aside := by
    refine always_touches fun s => ?_
    rcases s.inventory.updateSame_cases i fresh with ⟨_, _, _, hu⟩ | hu
    · simp only [storeSame, hu]
      exact .sets i fresh
    · simp only [storeSame, hu]
      exact .same
  have hclear : (modify clearCache : Job (Shared β σ) PUnit).Always Aside :=
    always_touches fun s => .same
  have hselect (i : UInt64) : (modifyGet (selectPrimary i) : Job (Shared β σ) Status).Always Aside := by
    refine always_touches fun s => ?_
    rcases selectPrimary_cases i s with ⟨_, hsel⟩ | hsel
    · rw [hsel]
      exact .selects i
    · rw [hsel]
      exact .same
  -- what an operation does after the detection is a query, or made of these steps
  unfold Operation.afterwards
  cases op.query? with
  | some q => exact hdiscard (Job.always_bind (hlook q) fun now => always_query hb q now)
  | none =>
    dsimp only
    split
    · exact hdiscard ((admits_aside hb).refreshEach hstore hclear)
    · exact hdiscard ((admits_aside hb).select (hselect _))
    · exact hdiscard (admits_aside hb).get

theorem always_unready {op : Operation} (hop : op = .cacheStats ∨ ∃ r, op = .reread r) :
    (op.perform : Job (Shared β σ) Unit).Always Aside := by
  rcases hop with rfl | ⟨r, rfl⟩
  · have hstats : (cacheStats : Job (Shared β σ) Cache.Stats).Always Aside :=
      Job.always_bind always_now fun _ => Job.always_bind (admits_aside hb).get fun _ => trivial
    exact Job.always_bind hstats fun _ => trivial
  · exact Job.always_bind ((admits_aside hb).refreshReading r) fun _ => trivial

end Always

end GpuTelemetry.Monitor
