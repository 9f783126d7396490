import GpuTelemetry.Monitor.Shared

namespace GpuTelemetry

namespace Job

variable {σ α β : Type} {s : σ} {Q : α → σ → Prop}

/-- The second part of a job runs from the state in which the first one ends. -/
theorem run_bind (job : Job σ α) (f : α → Job σ β) (s : σ) :
    (job >>= f).run s = (job.run s).bind fun p => (f p.1).run p.2 := by
  change (job.bind f).run s = _
  -- a bind runs the job's own steps first, so the induction follows them
  induction job generalizing s with
  | done a => rfl
  | step ready update next ih =>
    simp only [bind, run]
    split
    · exact ih s (update s)
    · rfl

@[simp] theorem run_pure (a : α) (s : σ) : (pure a : Job σ α).run s = some (a, s) := rfl

instance : LawfulMonad (Job σ) :=
  have hpure {α : Type} (job : Job σ α) : job.bind .done = job := by
    induction job with
    | done a => rfl
    | step ready update next ih => exact congrArg (Job.step ready update) (funext ih)
  have hassoc {α β γ : Type} (job : Job σ α) (f : α → Job σ β) (g : β → Job σ γ) :
      (job.bind f).bind g = job.bind fun a => (f a).bind g := by
    induction job with
    | done a => rfl
    | step ready update next ih => exact congrArg (Job.step ready update) (funext ih)
  .mk' _ hpure (fun _ _ => rfl) hassoc

theorem discard_bind (job : Job σ α) (f : α → Job σ β) :
    discard (job >>= f) = job >>= fun a => discard (f a) :=
  map_bind _ job f

theorem bind_discard (job : Job σ α) (next : Job σ β) :
    (discard job >>= fun _ => next) = job >>= fun _ => next :=
  bind_assoc job _ _

theorem discard_map (f : α → β) (job : Job σ α) : discard (f <$> job) = discard job :=
  bind_assoc job _ _

theorem discard_unit (job : Job σ Unit) : discard job = job := bind_pure job

/-- Run alone from `s` the job comes to an end, and `Q` holds of its result and of the state it
leaves. -/
def Ends (job : Job σ α) (s : σ) (Q : α → σ → Prop) : Prop :=
  ∃ a s', job.run s = some (a, s') ∧ Q a s'

theorem ends_pure {a : α} (h : Q a s) : Ends (pure a) s Q := ⟨a, s, rfl, h⟩

/-- To end well, the first part has to end where the second one ends well. -/
theorem ends_bind {job : Job σ β} {f : β → Job σ α} (h : Ends job s fun b s' => Ends (f b) s' Q) :
    Ends (job >>= f) s Q := by
  obtain ⟨b, s', hrun, a, s'', hrun', hQ⟩ := h
  exact ⟨a, s'', by rw [run_bind, hrun, Option.bind_some, hrun'], hQ⟩

theorem Ends.mono {job : Job σ α} {P : α → σ → Prop} (h : Ends job s P)
    (hPQ : ∀ a s', P a s' → Q a s') : Ends job s Q := by
  obtain ⟨a, s', hrun, hP⟩ := h
  exact ⟨a, s', hrun, hPQ a s' hP⟩

/-- What is known of the end of a job is known of the very end that its run comes to. -/
theorem Ends.run_eq {job : Job σ α} (h : Ends job s Q) :
    Ends job s fun a s' => job.run s = some (a, s') ∧ Q a s' := by
  obtain ⟨a, s', hrun, hQ⟩ := h
  exact ⟨a, s', hrun, hrun, hQ⟩

theorem ends_map {job : Job σ β} {f : β → α} (h : Ends job s fun b s' => Q (f b) s') :
    Ends (f <$> job) s Q :=
  ends_bind (h.mono fun _ _ hQ => ends_pure hQ)

end Job

namespace Shared

open Job (Ends)

variable {β σ α : Type} {w : Shared β σ}

@[simp] theorem run_get (w : Shared β σ) :
    (get : Job (Shared β σ) (Monitor β)).run w = some (w.monitor, w) := rfl

@[simp] theorem run_modify (f : Monitor β → Monitor β) (w : Shared β σ) :
    (modify f : Job (Shared β σ) PUnit).run w = some ((), { w with monitor := f w.monitor }) := rfl

@[simp] theorem run_modifyGet (f : Monitor β → α × Monitor β) (w : Shared β σ) :
    (modifyGet f : Job (Shared β σ) α).run w =
      some ((f w.monitor).1, { w with monitor := (f w.monitor).2 }) := rfl

theorem ends_get {Q : Monitor β → Shared β σ → Prop} (h : Q w.monitor w) :
    Ends (get : Job (Shared β σ) (Monitor β)) w Q := ⟨_, _, rfl, h⟩

theorem ends_modifyGet {f : Monitor β → α × Monitor β} {Q : α → Shared β σ → Prop}
    (h : Q (f w.monitor).1 { w with monitor := (f w.monitor).2 }) :
    Ends (modifyGet f : Job (Shared β σ) α) w Q := ⟨_, _, rfl, h⟩

theorem ends_modify {f : Monitor β → Monitor β} {Q : PUnit → Shared β σ → Prop}
    (h : Q () { w with monitor := f w.monitor }) :
    Ends (modify f : Job (Shared β σ) PUnit) w Q := ⟨_, _, rfl, h⟩

variable [Surroundings σ]

@[simp] theorem run_now (w : Shared β σ) : (Host.now : Job (Shared β σ) Instant).run w =
    some ((Surroundings.now w.outside).1, { w with outside := (Surroundings.now w.outside).2 }) := rfl

/-- A job under the detection lock, where nobody else has it. -/
theorem run_exclusively (job : Job (Shared β σ) α) (w : Shared β σ) :
    (Host.exclusively job).run w = if w.detecting then none
      else (job.run { w with detecting := true }).map fun x =>
        (x.1, { x.2 with detecting := false }) := by
  have henter : (enterDetection : Job (Shared β σ) Unit).run w =
      if w.detecting then none else some ((), { w with detecting := true }) := by
    cases hd : w.detecting <;> simp [enterDetection, Job.await, Job.run, hd]
  have hleave (a : α) (v : Shared β σ) :
      (leaveDetection >>= fun _ => (pure a : Job (Shared β σ) α)).run v =
        some (a, { v with detecting := false }) := rfl
  change (enterDetection >>= fun _ => job >>= fun a => leaveDetection >>= fun _ => pure a).run w = _
  rw [Job.run_bind, henter]
  cases w.detecting with
  | true => rfl
  | false =>
    simp only [Bool.false_eq_true, if_false, Option.bind_some, Job.run_bind]
    cases job.run { w with detecting := true } with
    | none => rfl
    | some x => exact hleave x.1 x.2

/-- The clock may show any time. -/
theorem ends_now {Q : Instant → Shared β σ → Prop} (h : ∀ t o, Q t { w with outside := o }) :
    Ends (Host.now : Job (Shared β σ) Instant) w Q := ⟨_, _, rfl, h _ _⟩

theorem ends_report {n : Notice} {Q : Unit → Shared β σ → Prop}
    (h : ∀ o, Q () { w with outside := o }) :
    Ends (Host.report n : Job (Shared β σ) Unit) w Q := ⟨_, _, rfl, h _⟩

/-- A section under the detection lock needs the lock to be free. -/
theorem ends_exclusively {job : Job (Shared β σ) α} {Q : α → Shared β σ → Prop}
    (hfree : w.detecting = false)
    (h : Ends job { w with detecting := true } fun a v => Q a { v with detecting := false }) :
    Ends (Host.exclusively job) w Q := by
  have henter : Ends (enterDetection : Job (Shared β σ) Unit) w
      fun _ v => v = { w with detecting := true } :=
    ⟨(), _, by simp [enterDetection, Job.await, Job.run, hfree], rfl⟩
  refine Job.ends_bind (henter.mono ?_)
  intro u v hv
  obtain rfl := hv
  exact Job.ends_bind (h.mono fun a v hQ => ⟨a, _, rfl, hQ⟩)

end Shared

end GpuTelemetry
