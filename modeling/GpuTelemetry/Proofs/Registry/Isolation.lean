import GpuTelemetry.Proofs.Registry.Watched

namespace GpuTelemetry

namespace Registry

open Shared (Watches watched watches_pure watches_bind watches_pass watches_reportAll)

variable {β σ : Type}

/-! ### What a detection asks -/

def accepted (regs : List (Vendor × Option β)) : List β := regs.filterMap (·.2)

/-- The backends are those handed in, without the missing ones. -/
theorem backends_registered (regs : List (Vendor × Option β)) :
    (registered regs).entries.map (·.backend) = accepted regs := by
  -- one registration at a time; a missing backend leaves the registry as it is
  induction regs using List.reverseRecOn with
  | nil => rfl
  | append_singleton regs x ih =>
    obtain ⟨v, b⟩ := x
    have hstep : registered (regs ++ [(v, b)]) = ((registered regs).register v b).2 := by
      rw [registered, List.foldl_append, List.foldl_cons, List.foldl_nil]
      rfl
    rw [hstep, accepted, List.filterMap_append]
    rw [accepted] at ih
    cases b with
    | none =>
      have hnone : [((v, none) : Vendor × Option β)].filterMap (·.2) = [] := rfl
      rw [hnone, List.append_nil, ← ih]
      rfl
    | some b =>
      have hsome : [(v, some b)].filterMap (·.2) = [b] := rfl
      rw [hsome, ← ih]
      exact List.map_append

def searched (x : β × Detection) : Consultation β := .detect x.1 [] x.2

def kept (visits : List (β × Detection)) : List Reading :=
  (visits.filter fun x => x.2.outcome = .returned .ok).flatMap fun x => x.2.found

theorem status_isOk_iff {o : Outcome} : o.status.isOk = true ↔ o = .returned .ok := by
  cases o with
  | returned s => cases s <;> simp [Outcome.status, Status.isOk]
  | threw message => simp [Outcome.status, Status.isOk]

theorem kept_cons_of_ok {b : β} {d : Detection} (h : d.outcome = .returned .ok)
    (visits : List (β × Detection)) : kept ((b, d) :: visits) = d.found ++ kept visits := by
  rw [kept, List.filter_cons_of_pos (by simpa using h), List.flatMap_cons, kept]

theorem kept_cons_of_ne {b : β} {d : Detection} (h : d.outcome ≠ .returned .ok)
    (visits : List (β × Detection)) : kept ((b, d) :: visits) = kept visits := by
  rw [kept, List.filter_cons_of_neg (by simpa using h), kept]

section

variable [BackendCalls β (StateM σ)] [Surroundings σ]

/-- The backend of an entry is asked once, and its failure is an empty answer. -/
theorem watches_detectEntry (e : Registration β) :
    Watches (β := β) (σ := σ) (detectEntry e) (detectEntry e) fun found made =>
      ∃ d, made = [searched (e.backend, d)] ∧ found = kept [(e.backend, d)] := by
  refine watches_bind (watches_pass _ fun d => [.detect e.backend [] d]) fun d made hmade => ?_
  subst hmade
  cases hok : d.outcome.status.isOk with
  | true =>
    have hd : d.outcome = .returned .ok := status_isOk_iff.1 hok
    refine watches_pure ⟨d, rfl, ?_⟩
    rw [kept_cons_of_ok hd]
    exact (List.append_nil _).symm
  | false =>
    have hd : d.outcome ≠ .returned .ok := by
      rw [Ne, ← status_isOk_iff, hok]
      exact Bool.false_ne_true
    -- the name and the reports in between are no calls for devices
    refine watches_bind (watches_pass _ fun _ => []) fun name made hmade => ?_
    subst hmade
    refine watches_bind (watches_reportAll _) fun _ made hmade => ?_
    subst hmade
    refine watches_pure ⟨d, rfl, ?_⟩
    rw [kept_cons_of_ne hd]
    rfl

/-- One detection of each backend, in order, on an empty list. -/
theorem watches_detectEntries (es : List (Registration β)) :
    Watches (β := β) (σ := σ) (detectEntries es) (detectEntries es) fun found made =>
      ∃ visits, visits.map Prod.fst = es.map (·.backend) ∧ made = visits.map searched ∧
        found = kept visits := by
  induction es with
  | nil => exact watches_pure ⟨[], rfl, rfl, rfl⟩
  | cons e es ih =>
    refine watches_bind (watches_detectEntry e) fun found made hfound => ?_
    obtain ⟨d, rfl, rfl⟩ := hfound
    refine watches_bind ih fun more made hmore => watches_pure ?_
    obtain ⟨visits, hvisits, rfl, rfl⟩ := hmore
    refine ⟨(e.backend, d) :: visits, ?_, ?_, ?_⟩
    · rw [List.map_cons, hvisits, List.map_cons]
    · rw [List.append_nil, List.map_cons]
      rfl
    · rw [kept, kept, kept, ← List.flatMap_append, ← List.filter_append]
      rfl

end

/-! ### What failing backends leave -/

/-- The same backends, except for what is in the list of one that fails: that is anything at all. -/
@[reducible] def leaving (calls : BackendCalls β (StateM σ)) (junk : β → List Reading → σ → List Reading) :
    BackendCalls β (StateM σ) where
  name := calls.name
  detect b listed s :=
    let (d, s') := calls.detect b listed s
    (if d.outcome = .returned .ok then d else { d with found := junk b listed s }, s')
  refresh := calls.refresh

theorem detect_leaving_of_ok {calls : BackendCalls β (StateM σ)} {b : β} {s : σ}
    (junk : β → List Reading → σ → List Reading)
    (h : (calls.detect b [] s).1.outcome = .returned .ok) :
    (leaving calls junk).detect b [] s = calls.detect b [] s :=
  congrArg (fun d => (d, (calls.detect b [] s).2)) (if_pos h)

theorem detect_leaving_of_ne {calls : BackendCalls β (StateM σ)} {b : β} {s : σ}
    (junk : β → List Reading → σ → List Reading)
    (h : (calls.detect b [] s).1.outcome ≠ .returned .ok) :
    (leaving calls junk).detect b [] s =
      ({ (calls.detect b [] s).1 with found := junk b [] s }, (calls.detect b [] s).2) :=
  congrArg (fun d => (d, (calls.detect b [] s).2)) (if_neg h)

variable [Surroundings σ]

def detectAllWith (calls : BackendCalls β (StateM σ)) (reg : Registry β) :
    Job (Shared β σ) (List Reading) :=
  reg.detectAll

def detectEntriesWith (calls : BackendCalls β (StateM σ)) (es : List (Registration β)) :
    Job (Shared β σ) (List Reading) :=
  detectEntries es

def detectEntryWith (calls : BackendCalls β (StateM σ)) (e : Registration β) :
    Job (Shared β σ) (List Reading) :=
  detectEntry e

/-- What is done with the detection of an entry whose backend says its name by the given job. -/
def keepFound (e : Registration β) (name : Job (Shared β σ) Text) (d : Detection) :
    Job (Shared β σ) (List Reading) :=
  if d.outcome.status.isOk then pure d.found
  else do
    let backend ← name
    Host.reportAll (detectNotices backend e.vendor d.outcome)
    pure []

theorem run_detectEntryWith (calls : BackendCalls β (StateM σ)) (e : Registration β) (w : Shared β σ) :
    (detectEntryWith calls e).run w =
      (keepFound e (Shared.onOutside (calls.name e.backend))
        (calls.detect e.backend [] w.outside).1).run
          { w with outside := (calls.detect e.backend [] w.outside).2 } := rfl

theorem run_detectEntriesWith_cons (calls : BackendCalls β (StateM σ)) (e : Registration β)
    (es : List (Registration β)) (w : Shared β σ) :
    (detectEntriesWith calls (e :: es)).run w =
      ((detectEntryWith calls e).run w).bind fun x =>
        ((detectEntriesWith calls es).run x.2).bind fun y => some (x.1 ++ y.1, y.2) := by
  change (detectEntryWith calls e >>= fun found =>
    detectEntriesWith calls es >>= fun more => pure (found ++ more)).run w = _
  rw [Job.run_bind]
  apply congrArg
  funext x
  exact Job.run_bind _ _ _

/-- The list of a backend that failed is not looked into. -/
theorem keepFound_of_ne (e : Registration β) (name : Job (Shared β σ) Text) {d d' : Detection}
    (h : d.outcome ≠ .returned .ok) (heq : d'.outcome = d.outcome) :
    keepFound e name d' = keepFound e name d := by
  have hok : ¬ d.outcome.status.isOk = true := by rwa [status_isOk_iff]
  rw [keepFound, keepFound, heq, if_neg hok, if_neg hok]

variable (calls : BackendCalls β (StateM σ)) (junk : β → List Reading → σ → List Reading)

/-- What a backend that fails leaves behind is dropped. -/
theorem run_detectEntry_leaving (e : Registration β) (w : Shared β σ) :
    (detectEntryWith (leaving calls junk) e).run w = (detectEntryWith calls e).run w := by
  rw [run_detectEntryWith, run_detectEntryWith]
  by_cases hok : (calls.detect e.backend [] w.outside).1.outcome = .returned .ok
  · rw [detect_leaving_of_ok junk hok]
    rfl
  · rw [detect_leaving_of_ne junk hok]
    exact congrArg (fun job => Job.run job _) (keepFound_of_ne e _ hok rfl)

/-- What failing backends leave behind makes no difference to a detection. -/
theorem run_detectEntries_leaving (es : List (Registration β)) (w : Shared β σ) :
    (detectEntriesWith (leaving calls junk) es).run w = (detectEntriesWith calls es).run w := by
  induction es generalizing w with
  | nil => rfl
  | cons e es ih =>
    rw [run_detectEntriesWith_cons, run_detectEntriesWith_cons, run_detectEntry_leaving]
    simp only [ih]

/-- **Detection keeps failures apart.** It asks every registered backend once, in order of registration and
with an empty list, and comes to the lists of those that succeeded, one after the other. What a backend
left that failed or threw is no part of that, and if the failing backends leave other lists instead, the
detection comes to the same and leaves its surroundings the same. -/
theorem detectAll_isolates (regs : List (Vendor × Option β))
    (w : Shared β σ) :
    ∃ visits o, visits.map Prod.fst = accepted regs ∧
      (detectAllWith calls (registered regs)).run w = some (kept visits, { w with outside := o }) ∧
      ((registered regs).detectAll : Job (Shared β (Watched β σ)) (List Reading)).run
        (w.watched []) = some (kept visits, watched (visits.map searched) { w with outside := o }) ∧
      ∀ junk, (detectAllWith (leaving calls junk) (registered regs)).run w =
        some (kept visits, { w with outside := o }) := by
  obtain ⟨found, o, made, hrun, hseen, visits, hvisits, rfl, rfl⟩ :=
    watches_detectEntries (registered regs).entries w []
  rw [List.nil_append] at hseen
  rw [backends_registered] at hvisits
  refine ⟨visits, o, hvisits, hrun, hseen, ?_⟩
  intro junk
  calc (detectAllWith (leaving calls junk) (registered regs)).run w
      = (detectAllWith calls (registered regs)).run w := run_detectEntries_leaving calls junk _ w
    _ = some (kept visits, { w with outside := o }) := hrun

end Registry

end GpuTelemetry
