import GpuTelemetry.Proofs.Job.Run
import GpuTelemetry.Registry
import Mathlib.Data.List.Induction
/-!
What a registry asks of its backends, call by call. Surroundings can be watched: each call for devices
into a backend is noted with what the backend was given and how it came back. The watch changes nothing
about a run, so what it notes are the calls that the run makes.
-/

namespace GpuTelemetry

inductive Consultation (β : Type) where
  | detect (backend : β) (given : List Reading) (d : Detection)
  | refresh (backend : β) (given : Reading) (a : Attempt)

structure Watched (β σ : Type) where
  world : σ
  /-- The calls so far, in order. -/
  calls : List (Consultation β)

namespace Watched

variable {β σ α : Type}

def pass (f : σ → α × σ) (note : α → List (Consultation β)) (w : Watched β σ) : α × Watched β σ :=
  ((f w.world).1, { world := (f w.world).2, calls := w.calls ++ note (f w.world).1 })

instance [Surroundings σ] : Surroundings (Watched β σ) where
  now := pass Surroundings.now fun _ => []
  report n w := (pass (fun s => ((), Surroundings.report n s)) (fun _ => []) w).2

instance [BackendCalls β (StateM σ)] : BackendCalls β (StateM (Watched β σ)) where
  name b := pass (BackendCalls.name (m := StateM σ) b) fun _ => []
  detect b listed := pass (BackendCalls.detect (m := StateM σ) b listed) fun d => [.detect b listed d]
  refresh b r := pass (BackendCalls.refresh (m := StateM σ) b r) fun a => [.refresh b r a]

end Watched

namespace Shared

variable {β σ α γ : Type} {P : γ → List (Consultation β) → Prop}
  {Q R : α → List (Consultation β) → Prop}

def watched (calls : List (Consultation β)) (w : Shared β σ) : Shared β (Watched β σ) :=
  { monitor := w.monitor, outside := { world := w.outside, calls }, detecting := w.detecting }

/-- The second job is the first under watch: run alone they come to the same result and leave the same
surroundings, nothing else is changed, and `Q` holds of the result and of the calls that were noted. -/
def Watches (job : Job (Shared β σ) α) (seen : Job (Shared β (Watched β σ)) α)
    (Q : α → List (Consultation β) → Prop) : Prop :=
  ∀ w calls, ∃ a o made, job.run w = some (a, { w with outside := o }) ∧
    seen.run (w.watched calls) =
      some (a, watched (calls ++ made) ({ w with outside := o } : Shared β σ)) ∧ Q a made

theorem Watches.mono {job : Job (Shared β σ) α} {seen : Job (Shared β (Watched β σ)) α}
    (h : Watches job seen Q) (hQR : ∀ a made, Q a made → R a made) : Watches job seen R := by
  intro w calls
  obtain ⟨a, o, made, hrun, hseen, hQ⟩ := h w calls
  exact ⟨a, o, made, hrun, hseen, hQR a made hQ⟩

theorem watches_pure {a : α} (h : Q a []) :
    Watches (pure a : Job (Shared β σ) α) (pure a) Q := by
  intro w calls
  refine ⟨a, w.outside, [], rfl, ?_, h⟩
  rw [List.append_nil]
  rfl

/-- The calls of the two parts of a job come one after the other. -/
theorem watches_bind {job : Job (Shared β σ) γ} {seen : Job (Shared β (Watched β σ)) γ}
    {f : γ → Job (Shared β σ) α} {g : γ → Job (Shared β (Watched β σ)) α} (h : Watches job seen P)
    (hf : ∀ c made, P c made → Watches (f c) (g c) fun a more => Q a (made ++ more)) :
    Watches (job >>= f) (seen >>= g) Q := by
  intro w calls
  obtain ⟨c, o, made, hrun, hseen, hP⟩ := h w calls
  obtain ⟨a, o', more, hrun', hseen', hQ⟩ := hf c made hP { w with outside := o } (calls ++ made)
  refine ⟨a, o', made ++ more, ?_, ?_, hQ⟩
  · rw [Job.run_bind, hrun, Option.bind_some, hrun']
  · rw [Job.run_bind, hseen, Option.bind_some, hseen', List.append_assoc]

theorem watches_pass (f : σ → α × σ) (note : α → List (Consultation β)) :
    Watches (onOutside f) (onOutside (Watched.pass f note)) fun a made => made = note a :=
  fun _ _ => ⟨_, _, _, rfl, rfl, rfl⟩

variable [Surroundings σ]

theorem watches_report (n : Notice) :
    Watches (β := β) (σ := σ) (Host.report n) (Host.report n) fun _ made => made = [] :=
  watches_pass _ fun _ => []

theorem watches_reportAll (ns : List Notice) :
    Watches (β := β) (σ := σ) (Host.reportAll ns) (Host.reportAll ns) fun _ made => made = [] := by
  induction ns with
  | nil => exact watches_pure rfl
  | cons n ns ih =>
    refine watches_bind (watches_report n) fun _ made hmade => ih.mono fun _ more hmore => ?_
    rw [hmade, hmore]
    rfl

end Shared

namespace Registry

open Shared (Watches watched watches_pure watches_bind watches_pass watches_report watches_reportAll)

variable {β σ : Type}

def registered (regs : List (Vendor × Option β)) : Registry β :=
  regs.foldl (fun reg x => (reg.register x.1 x.2).2) {}

def candidates (regs : List (Vendor × Option β)) (family : Family) : List β :=
  regs.filterMap fun x => if x.1.family = family then x.2 else none

theorem ofFamily_register (reg : Registry β) (v u : Vendor) (b : Option β) :
    ((reg.register u b).2.ofFamily v).map (·.backend) =
      (reg.ofFamily v).map (·.backend) ++ candidates [(u, b)] v.family := by
  cases b with
  | none => simp [register, candidates]
  | some b =>
    by_cases h : u.family = v.family
    · simp [register, candidates, ofFamily, Vendor.sameFamily, h]
    · simp [register, candidates, ofFamily, Vendor.sameFamily, h]

/-- The backends of a family are those registered for it, in order. -/
theorem ofFamily_registered (regs : List (Vendor × Option β)) (v : Vendor) :
    ((registered regs).ofFamily v).map (·.backend) = candidates regs v.family := by
  induction regs using List.reverseRecOn with
  | nil => rfl
  | append_singleton regs x ih =>
    rw [registered, List.foldl_append, List.foldl_cons, List.foldl_nil, ofFamily_register]
    rw [registered] at ih
    rw [ih, candidates, candidates, candidates, List.filterMap_append]

def asked (r : Reading) (x : β × Attempt) : Consultation β := .refresh x.1 r x.2

/-- Backends were asked for a new reading of `r` in turn. All failed, or all but the last, and then
there are perhaps others that were not asked. -/
def AskedInTurn (r : Reading) (bs : List β) (found : Option Reading)
    (made : List (Consultation β)) : Prop :=
  ∃ failed : List (β × Attempt), (∀ x ∈ failed, x.2.outcome.status ≠ .ok) ∧
    ((∃ b a, failed.map Prod.fst ++ [b] <+: bs ∧ made = (failed ++ [(b, a)]).map (asked r) ∧
        a.outcome.status = .ok ∧ found = some a.reading) ∨
      failed.map Prod.fst = bs ∧ made = failed.map (asked r) ∧ found = none)

theorem AskedInTurn.cons {r : Reading} {bs : List β} {found : Option Reading}
    {made : List (Consultation β)} (h : AskedInTurn r bs found made) {b : β} {a : Attempt}
    (ha : a.outcome.status ≠ .ok) : AskedInTurn r (b :: bs) found (asked r (b, a) :: made) := by
  obtain ⟨failed, hfailed, hrest⟩ := h
  refine ⟨(b, a) :: failed, List.forall_mem_cons.2 ⟨ha, hfailed⟩, ?_⟩
  rcases hrest with ⟨b', a', hbs, rfl, ha', hfound⟩ | ⟨rfl, rfl, hfound⟩
  · exact Or.inl ⟨b', a', (List.prefix_cons_inj b).2 hbs, rfl, ha', hfound⟩
  · exact Or.inr ⟨rfl, rfl, hfound⟩

variable [BackendCalls β (StateM σ)] [Surroundings σ]

/-- Backends are asked until one succeeds. -/
theorem watches_refreshAmong (r : Reading) (es : List (Registration β)) :
    Watches (β := β) (σ := σ) (refreshAmong r es) (refreshAmong r es)
      (AskedInTurn r (es.map (·.backend))) := by
  induction es with
  | nil => exact watches_pure ⟨[], by simp, Or.inr ⟨rfl, rfl, rfl⟩⟩
  | cons e es ih =>
    refine watches_bind (watches_pass _ fun a => [.refresh e.backend r a]) fun a made hmade => ?_
    subst hmade
    cases hok : a.outcome.status.isOk with
    | true =>
      have ha : a.outcome.status = .ok := by simpa [Status.isOk] using hok
      exact watches_pure ⟨[], by simp, Or.inl ⟨e.backend, a, by simp, by simp [asked], ha, rfl⟩⟩
    | false =>
      have ha : a.outcome.status ≠ .ok := by simpa [Status.isOk] using hok
      -- the backend's name and the reports in between are no calls for devices
      refine watches_bind (watches_pass _ fun _ => []) fun name made hmade => ?_
      subst hmade
      refine watches_bind (watches_reportAll _) fun _ made hmade => ?_
      subst hmade
      exact ih.mono fun found more hmore => hmore.cons ha

/-- What a refresh comes to, given what it found and how many backends there were to ask. -/
theorem watches_refresh (reg : Registry β) (r : Reading) :
    Watches (β := β) (σ := σ) (reg.refresh r) (reg.refresh r) fun x made =>
      ∃ found, AskedInTurn r ((reg.ofFamily r.vendor).map (·.backend)) found made ∧
        x = match found with
          | some fresh => (.ok, fresh)
          | none => (if (reg.ofFamily r.vendor).isEmpty then .noBackend else .detectionFailed, r) := by
  unfold refresh
  cases hes : reg.ofFamily r.vendor with
  | nil => exact watches_pure ⟨none, ⟨[], by simp, Or.inr ⟨rfl, rfl, rfl⟩⟩, rfl⟩
  | cons e es =>
    refine watches_bind (watches_refreshAmong r (e :: es)) fun found made hmade => ?_
    cases found with
    | some fresh =>
      refine watches_pure ⟨some fresh, ?_, rfl⟩
      rwa [List.append_nil]
    | none =>
      refine watches_bind (watches_report _) fun _ more hmore => watches_pure ⟨none, ?_, rfl⟩
      rwa [hmore, List.append_nil, List.append_nil]

/-- **A refresh asks in turn.** It asks the backends registered for the family of the device's vendor, in
order of registration, each once and each with the reading as it was, until one succeeds; whether a
backend fails by its status or throws makes no difference, nor does what it left in its copy. A success
is the answer, with the reading that backend left. If none succeeds all have been asked, the status says
whether there were any, and the reading is the one that was passed in. -/
theorem refresh_asks_in_turn (regs : List (Vendor × Option β)) (r : Reading) (w : Shared β σ) :
    ∃ status fresh o made,
      ((registered regs).refresh r : Job (Shared β σ) (Status × Reading)).run w =
        some ((status, fresh), { w with outside := o }) ∧
      ((registered regs).refresh r : Job (Shared β (Watched β σ)) (Status × Reading)).run
        (w.watched []) = some ((status, fresh), watched made { w with outside := o }) ∧
      ∃ failed : List (β × Attempt), (∀ x ∈ failed, x.2.outcome.status ≠ .ok) ∧
        ((∃ b a, failed.map Prod.fst ++ [b] <+: candidates regs r.vendor.family ∧
            made = (failed ++ [(b, a)]).map (asked r) ∧
            a.outcome.status = .ok ∧ status = .ok ∧ fresh = a.reading) ∨
          failed.map Prod.fst = candidates regs r.vendor.family ∧
            made = failed.map (asked r) ∧ fresh = r ∧
            status = if candidates regs r.vendor.family = [] then .noBackend
              else .detectionFailed) := by
  obtain ⟨x, o, made, hrun, hseen, found, ⟨failed, hfailed, hasked⟩, rfl⟩ :=
    watches_refresh (registered regs) r w []
  rw [List.nil_append] at hseen
  refine ⟨_, _, o, made, hrun, hseen, failed, hfailed, ?_⟩
  rw [← ofFamily_registered]
  -- the loop ended with a backend that succeeded, or all have failed
  rcases hasked with ⟨b, a, hbs, hmade, ha, rfl⟩ | ⟨hbs, hmade, rfl⟩
  · exact Or.inl ⟨b, a, hbs, hmade, ha, rfl, rfl⟩
  · exact Or.inr ⟨hbs, hmade, rfl, by simp⟩

end Registry

end GpuTelemetry
