import GpuTelemetry.Monitor.Operations
import GpuTelemetry.Proofs.Job.Run

namespace GpuTelemetry

open Job (Ends ends_pure ends_bind)

variable {β σ α γ : Type}

namespace Registry

/-- A property of jobs that holds of what a registry does step by step. -/
structure Admits [BackendCalls β (Job (Shared β σ))] [Surroundings σ]
    (P : (α : Type) → Job (Shared β σ) α → Prop) : Prop where
  pure {α : Type} (a : α) : P α (Pure.pure a)
  bind {α γ : Type} {job : Job (Shared β σ) γ} {f : γ → Job (Shared β σ) α} (h : P γ job)
    (hf : ∀ c, P α (f c)) : P α (job >>= f)
  report (n : Notice) : P Unit (Host.report n)
  name (b : β) : P Text (BackendCalls.name b)
  detect (b : β) : P Detection (BackendCalls.detect b [])
  refresh (b : β) (r : Reading) : P Attempt (BackendCalls.refresh b r)

namespace Admits

variable [BackendCalls β (Job (Shared β σ))] [Surroundings σ]
  {P : (α : Type) → Job (Shared β σ) α → Prop} (h : Admits P)

include h

theorem reportAll (ns : List Notice) : P Unit (Host.reportAll ns) := by
  induction ns with
  | nil => exact h.pure ()
  | cons n ns ih => exact h.bind (h.report n) fun _ => ih

theorem detectEntry (e : Registration β) : P (List Reading) (Registry.detectEntry e) := by
  refine h.bind (h.detect e.backend) fun d => ?_
  split
  · exact h.pure _
  · apply h.bind (h.name e.backend)
    intro name
    exact h.bind (h.reportAll _) fun _ => h.pure _

/-- A detection consists of calls into the backends, so it has what they have. -/
theorem detectAll (reg : Registry β) : P (List Reading) reg.detectAll := by
  have hentries (es : List (Registration β)) : P (List Reading) (detectEntries es) := by
    induction es with
    | nil => exact h.pure []
    | cons e es ih =>
      apply h.bind (h.detectEntry e)
      intro found
      exact h.bind ih fun more => h.pure _
  exact hentries reg.entries

theorem refreshAmong (r : Reading) (es : List (Registration β)) :
    P (Option Reading) (Registry.refreshAmong r es) := by
  induction es with
  | nil => exact h.pure none
  | cons e es ih =>
    refine h.bind (h.refresh e.backend r) fun a => ?_
    split
    · exact h.pure _
    · apply h.bind (h.name e.backend)
      intro name
      exact h.bind (h.reportAll _) fun _ => ih

/-- A refresh consists of calls into the backends, so it has what they have. -/
theorem registry_refresh (reg : Registry β) (r : Reading) : P (Status × Reading) (reg.refresh r) := by
  unfold Registry.refresh
  split
  · exact h.pure _
  · refine h.bind (h.refreshAmong r _) fun found => ?_
    split
    · exact h.pure _
    · exact h.bind (h.report _) fun _ => h.pure _

end Admits

end Registry

namespace Monitor

structure Admits [BackendCalls β (Job (Shared β σ))] [Surroundings σ]
    (P : (α : Type) → Job (Shared β σ) α → Prop) : Prop extends Registry.Admits P where
  get : P (Monitor β) MonadState.get

namespace Admits

variable [BackendCalls β (Job (Shared β σ))] [Surroundings σ]
  {P : (α : Type) → Job (Shared β σ) α → Prop} (h : Admits P)

include h

theorem runDetection : P (List Reading) Monitor.runDetection :=
  h.bind h.get fun s => h.detectAll s.registry

theorem refreshReading (r : Reading) : P (Status × Reading) (Monitor.refreshReading r) :=
  h.bind h.get fun s => h.registry_refresh s.registry r

theorem refreshSlots (hstore : ∀ i fresh, P PUnit (modify (storeSame i fresh))) (first : Status)
    (n count : Nat) : P Status (Monitor.refreshSlots first n count) := by
  induction count generalizing first n with
  | zero => exact h.pure first
  | succ count ih =>
    refine h.bind h.get fun s => ?_
    split
    · exact h.pure first
    · refine h.bind (h.refreshReading _) fun x => ?_
      obtain ⟨status, fresh⟩ := x
      dsimp only
      split
      · exact h.bind (hstore n.toUInt64 fresh) fun _ => ih first (n + 1)
      · exact h.bind (h.report _) fun _ => ih _ (n + 1)

/-- All devices are refreshed, once a detection is stored. -/
theorem refreshEach (hstore : ∀ i fresh, P PUnit (modify (storeSame i fresh)))
    (hclear : P PUnit (modify clearCache)) : P Status (do
      let s ← MonadState.get
      let first ← Monitor.refreshSlots .ok 0 s.inventory.size
      modify clearCache
      Pure.pure first) := by
  refine h.bind h.get fun s => ?_
  apply h.bind (h.refreshSlots hstore .ok 0 _)
  intro first
  exact h.bind hclear fun _ => h.pure first

/-- A device is selected, once a detection is stored. -/
theorem select {i : UInt64} (hselect : P Status (modifyGet (selectPrimary i))) : P Status (do
      let status ← modifyGet (selectPrimary i)
      if !status.isOk then
        Host.report (unselectableNotice i status)
      Pure.pure status) := by
  refine h.bind hselect fun status => ?_
  dsimp only
  split
  · exact h.bind (h.report _) fun _ => h.pure status
  · exact h.pure status

end Admits

end Monitor

/-! ### Backends that act on their surroundings -/

/-- Run alone from any state the job ends and has changed no more than the surroundings, and `Q` holds
of its result. -/
def Shared.Outside (job : Job (Shared β σ) α) (Q : α → Prop) : Prop :=
  ∀ w, Ends job w fun a v => Q a ∧ ∃ o, v = { w with outside := o }

namespace Shared

theorem outside_pure {a : α} {Q : α → Prop} (h : Q a) : Outside (pure a : Job (Shared β σ) α) Q :=
  fun w => ends_pure ⟨h, w.outside, rfl⟩

theorem outside_onOutside (f : σ → α × σ) :
    Outside (onOutside f : Job (Shared β σ) α) fun _ => True :=
  fun w => ⟨_, _, rfl, trivial, (f w.outside).2, rfl⟩

theorem outside_bind {job : Job (Shared β σ) γ} {f : γ → Job (Shared β σ) α} {P : γ → Prop}
    {Q : α → Prop} (h : Outside job P) (hf : ∀ b, P b → Outside (f b) Q) :
    Outside (job >>= f) Q := by
  intro w
  refine ends_bind ((h w).mono fun b v hb => ?_)
  obtain ⟨hP, o, rfl⟩ := hb
  refine (hf b hP _).mono fun a v ha => ?_
  obtain ⟨hQ, o', rfl⟩ := ha
  exact ⟨hQ, o', rfl⟩

/-- Whatever runs in between, the job does not wait, changes no more than the surroundings and comes to
`a`. -/
def Yields (a : α) : Job (Shared β σ) α → Prop
  | .done b => b = a
  | .step ready update next =>
    ∀ w, ready w = true ∧ (∃ o, update w = { w with outside := o }) ∧ Yields a (next w)

theorem yields_pure (a : α) : Yields a (pure a : Job (Shared β σ) α) := rfl

theorem yields_bind {job : Job (Shared β σ) γ} {f : γ → Job (Shared β σ) α} {c : γ} {a : α}
    (h : Yields c job) (hf : Yields a (f c)) : Yields a (job >>= f) := by
  induction job with
  | done b =>
    obtain rfl : b = c := h
    exact hf
  | step ready update next ih =>
    intro w
    obtain ⟨hready, hout, hnext⟩ := h w
    exact ⟨hready, hout, ih w hnext⟩

theorem yields_onOutside {f : σ → α × σ} {a : α} (h : ∀ o, (f o).1 = a) :
    Yields a (onOutside f : Job (Shared β σ) α) :=
  fun w => ⟨rfl, ⟨_, rfl⟩, h w.outside⟩

/-- Alone it comes to `a` all the same. -/
theorem Yields.outside {job : Job (Shared β σ) α} {a : α} (h : Yields a job) :
    Outside job (· = a) := by
  induction job with
  | done b =>
    obtain rfl : b = a := h
    exact outside_pure rfl
  | step ready update next ih =>
    intro w
    obtain ⟨hready, ⟨o, hout⟩, hnext⟩ := h w
    obtain ⟨b, v, hrun, hb, o', hv⟩ := ih w hnext (update w)
    refine ⟨b, v, ?_, hb, o', ?_⟩
    · rw [Job.run, if_pos hready, hrun]
    · rw [hv, hout]

end Shared

namespace Registry

open Shared (Outside outside_pure outside_bind outside_onOutside)

variable [BackendCalls β (StateM σ)] [Surroundings σ]

theorem admits_outside :
    Admits fun α (job : Job (Shared β σ) α) => Outside job fun _ => True where
  pure _ := outside_pure trivial
  bind h hf := outside_bind h fun c _ => hf c
  report _ := outside_onOutside _
  name _ := outside_onOutside _
  detect _ := outside_onOutside _
  refresh _ _ := outside_onOutside _

/-- A detection by backends that leave the monitor alone leaves it alone. -/
theorem outside_detectAll (reg : Registry β) :
    Outside (reg.detectAll : Job (Shared β σ) (List Reading)) fun _ => True :=
  admits_outside.detectAll reg

/-- A refresh succeeds, or says that there is no backend or that none succeeded; then the reading is
the one that was passed in, whatever the backends did to theirs. -/
theorem outside_refresh (reg : Registry β) (r : Reading) :
    Outside (reg.refresh r : Job (Shared β σ) (Status × Reading)) fun x =>
      x.1 = .ok ∨ (x.1 = .noBackend ∨ x.1 = .detectionFailed) ∧ x.2 = r := by
  unfold refresh
  split
  · exact outside_pure (Or.inr ⟨Or.inl rfl, rfl⟩)
  · refine outside_bind (admits_outside.refreshAmong r _) fun found _ => ?_
    split
    · exact outside_pure (Or.inl rfl)
    · apply outside_bind (outside_onOutside _)
      intro u _
      exact outside_pure (Or.inr ⟨Or.inr rfl, rfl⟩)

end Registry

end GpuTelemetry
