import GpuTelemetry.Monitor.Operations
import GpuTelemetry.Proofs.Job.Run

namespace GpuTelemetry.Monitor

open Job (Ends ends_pure ends_bind)
open Shared (ends_get ends_modifyGet ends_modify ends_now ends_report ends_exclusively)

variable {β σ : Type} [BackendCalls β (Job (Shared β σ))] [Surroundings σ]
  {w : Shared β σ} {index : UInt64}

/-- Nothing is detected while a detection is stored; otherwise one runs and is stored. -/
theorem ends_ensureDetected {Q : PUnit → Shared β σ → Prop} (hfree : w.detecting = false)
    (hdone : w.monitor.inventory.initialized = true → Q () w)
    (hfirst : w.monitor.inventory.initialized = false →
      Ends (w.monitor.registry.detectAll) { w with detecting := true } fun found v =>
        Q () { v with monitor := install found v.monitor, detecting := false }) :
    Ends ensureDetected w Q := by
  refine ends_bind (ends_bind (ends_get (ends_pure ?_)))
  cases hi : w.monitor.inventory.initialized with
  | true => exact ends_pure (hdone hi)
  | false =>
    refine ends_exclusively hfree (ends_bind (ends_bind (ends_get (ends_pure ?_))))
    simp only [hi, Bool.not_false, if_true]
    exact ends_bind (ends_bind (ends_get ((hfirst hi).mono fun found v h => ends_modify h)))

theorem ends_detectAll {Q : Nat → Shared β σ → Prop} (hfree : w.detecting = false)
    (h : Ends (w.monitor.registry.detectAll) { w with detecting := true } fun found v =>
      Q (reinstall found v.monitor).inventory.size
        { v with monitor := reinstall found v.monitor, detecting := false }) :
    Ends detectAll w Q :=
  ends_exclusively hfree (ends_bind (ends_bind (ends_get (h.mono fun _ _ hQ => ends_modifyGet hQ))))

theorem ends_close_pending {p : Pending} {Q : Answer → Shared β σ → Prop}
    (h : Ends (w.monitor.registry.refresh p.slot.reading) w fun x v =>
      (x.1.isOk = true → ∀ t o, Q (publish p x.2 t v.monitor).1
        { v with monitor := (publish p x.2 t v.monitor).2, outside := o }) ∧
      (x.1.isOk = false → ∀ o, Q (Pending.failed p x.1) { v with outside := o })) :
    Ends (close (.pending p)) w Q := by
  refine ends_bind (ends_bind (ends_get (h.mono fun x v hQ => ?_)))
  dsimp only
  cases hx : x.1.isOk with
  | true =>
    rw [if_pos rfl]
    exact ends_bind (ends_now fun t o => ends_modifyGet (hQ.1 hx t o))
  | false =>
    rw [if_neg (by simp)]
    exact ends_bind (ends_report fun o => ends_pure (hQ.2 hx o))

theorem ends_cached {Q : Answer → Shared β σ → Prop}
    (h : Ends ensureDetected w fun _ v => ∀ t o, Ends (close (openCached index t v.monitor).1)
      { v with monitor := (openCached index t v.monitor).2, outside := o } Q) :
    Ends (cached index) w Q :=
  ends_bind (h.mono fun _ _ hQ => ends_bind (ends_now fun t o =>
    ends_bind (ends_modifyGet (hQ t o))))

theorem ends_cachedPrimary {Q : Answer → Shared β σ → Prop}
    (h : Ends ensureDetected w fun _ v => ∀ t o, Ends (close (openPrimary t v.monitor).1)
      { v with monitor := (openPrimary t v.monitor).2, outside := o } Q) :
    Ends cachedPrimary w Q :=
  ends_bind (h.mono fun _ _ hQ => ends_bind (ends_now fun t o =>
    ends_bind (ends_modifyGet (hQ t o))))

theorem ends_refresh {Q : Answer → Shared β σ → Prop}
    (h : Ends ensureDetected w fun _ v => Ends (close (openRefresh index v.monitor).1)
      { v with monitor := (openRefresh index v.monitor).2 } Q) :
    Ends (refresh index) w Q :=
  ends_bind (h.mono fun _ _ hQ => ends_bind (ends_modifyGet hQ))

theorem ends_refreshPrimary {Q : Answer → Shared β σ → Prop}
    (h : Ends ensureDetected w fun _ v => Ends (close (openRefreshPrimary v.monitor).1)
      { v with monitor := (openRefreshPrimary v.monitor).2 } Q) :
    Ends refreshPrimary w Q :=
  ends_bind (h.mono fun _ _ hQ => ends_bind (ends_modifyGet hQ))

/-- Refreshing all devices goes through the slots and then empties the cache. -/
theorem ends_refreshAll {Q : Status → Shared β σ → Prop}
    (h : Ends ensureDetected w fun _ v => Ends (refreshSlots .ok 0 v.monitor.inventory.size) v
      fun st u => Q st { u with monitor := clearCache u.monitor }) :
    Ends refreshAll w Q :=
  ends_bind (h.mono fun _ _ hQ => ends_bind (ends_get (ends_bind (hQ.mono fun _ _ hQ' =>
    ends_bind (ends_modify (ends_pure hQ'))))))

theorem ends_setPrimary {Q : Status → Shared β σ → Prop}
    (h : Ends ensureDetected w fun _ v => ∀ o, Q (selectPrimary index v.monitor).1
      { v with monitor := (selectPrimary index v.monitor).2, outside := o }) :
    Ends (setPrimary index) w Q := by
  refine ends_bind (h.mono fun _ v hQ => ends_bind (ends_modifyGet ?_))
  dsimp only
  split
  · exact ends_bind (ends_report fun o => ends_pure (hQ o))
  · exact ends_pure (hQ v.outside)

theorem ends_device? {Q : Option Reading → Shared β σ → Prop}
    (h : Ends ensureDetected w fun _ v => Q (v.monitor.inventory.get? index) v) :
    Ends (device? index) w Q :=
  ends_bind (h.mono fun _ _ hQ => ends_bind (ends_get (ends_pure hQ)))

theorem ends_devices {Q : List Reading → Shared β σ → Prop}
    (h : Ends ensureDetected w fun _ v => Q v.monitor.inventory.devices v) :
    Ends devices w Q :=
  ends_bind (h.mono fun _ _ hQ => ends_bind (ends_get (ends_pure hQ)))

end GpuTelemetry.Monitor
