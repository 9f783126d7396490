import GpuTelemetry.Proofs.Monitor.Range
import GpuTelemetry.Proofs.Monitor.Sequential
import GpuTelemetry.Proofs.Registry

namespace GpuTelemetry.Monitor

/-- How a query went after it looked in the cache. -/
inductive Course where
  /-- The registry was not asked. -/
  | answered (a : Answer)
  /-- The registry returned a new reading, and at `now` it was published. -/
  | refreshed (p : Pending) (fresh : Reading) (now : Instant)
  | failed (p : Pending) (status : Status)

def Course.answer : Course → Answer
  | .answered a => a
  | .refreshed _ fresh _ => .fresh fresh
  | .failed p status => Pending.failed p status

structure Visit where
  query : Query
  looked : Instant
  course : Course

def Visit.answer (v : Visit) : Answer := v.course.answer

def Operation.query? : Operation → Option Query
  | .call (.cached i) => some (.cached i)
  | .call .cachedPrimary | .snapshot => some .cachedPrimary
  | .call (.refresh i) => some (.refresh i)
  | .call .refreshPrimary => some .refreshPrimary
  | _ => none

section Programs

variable {β σ α : Type} [BackendCalls β (Job (Shared β σ))] [Surroundings σ]

def follow : Opening → Job (Shared β σ) Course
  | .answered a => pure (.answered a)
  | .pending p => do
    let (status, fresh) ← refreshReading p.slot.reading
    if status.isOk then
      let now ← Host.now
      modifyGet fun s => (.refreshed p fresh now, (publish p fresh now s).2)
    else
      Host.report (keptNotice p status)
      pure (.failed p status)

def Query.perform : Query → Job (Shared β σ) Answer
  | .cached i => Monitor.cached i
  | .cachedPrimary => Monitor.cachedPrimary
  | .refresh i => Monitor.refresh i
  | .refreshPrimary => Monitor.refreshPrimary

/-- Only a query that may be answered from the cache looks at the clock first. -/
def Query.look : Query → Job (Shared β σ) Instant
  | .cached _ | .cachedPrimary => Host.now
  | .refresh _ | .refreshPrimary => pure 0

def Query.visit (q : Query) : Job (Shared β σ) Visit := do
  ensureDetected
  let now ← q.look
  let o ← modifyGet (q.opening now)
  let course ← follow o
  pure ⟨q, now, course⟩

def Operation.visits (op : Operation) : Job (Shared β σ) (List Visit) :=
  match op.query? with
  | some q => (fun v => [v]) <$> q.visit
  | none => (fun _ => []) <$> op.perform

def allVisits : List Operation → Job (Shared β σ) (List Visit)
  | [] => pure []
  | op :: ops => do
    let vs ← op.visits
    let more ← allVisits ops
    pure (vs ++ more)

def operate : List Operation → Job (Shared β σ) Unit
  | [] => pure ()
  | op :: ops => do
    op.perform
    operate ops

theorem answer_publish (p : Pending) (fresh : Reading) (now : Instant) (s : Monitor β) :
    (publish p fresh now s).1 = .fresh fresh := by
  rcases publish_cases p fresh now s with ⟨_, h⟩ | h <;> rw [h]

theorem answer_follow (o : Opening) :
    Course.answer <$> (follow o : Job (Shared β σ) Course) = close o := by
  have hpublish (p : Pending) (fresh : Reading) (now : Instant) :
      Course.answer <$> (modifyGet (fun s : Monitor β =>
        (Course.refreshed p fresh now, (publish p fresh now s).2)) : Job (Shared β σ) Course) =
      modifyGet (publish p fresh now) := by
    have hsame : publish (β := β) p fresh now =
        fun s => (.fresh fresh, (publish p fresh now s).2) := by
      funext s
      exact Prod.ext (answer_publish p fresh now s) rfl
    rw [hsame]
    rfl
  cases o with
  | answered a => rfl
  | pending p =>
    rw [follow, close, map_bind]
    -- from the registry's reply on there are two ways, and each ends with the same answer
    refine congrArg _ (funext fun x => ?_)
    by_cases hok : x.1.isOk
    · simp only [hok, if_true, map_bind, hpublish]
    · simp only [hok]
      rfl

/-- Telling how it went, a query does what it does anyway. -/
theorem answer_visit (q : Query) :
    Visit.answer <$> (q.visit : Job (Shared β σ) Visit) = q.perform := by
  have hfollow (now : Instant) (o : Opening) :
      Visit.answer <$> (follow o >>= fun course => pure ⟨q, now, course⟩ : Job (Shared β σ) Visit) =
        close o := by
    rw [map_bind, ← answer_follow o, ← bind_pure_comp]
    rfl
  have hvisit : Visit.answer <$> (q.visit : Job (Shared β σ) Visit) =
      ensureDetected >>= fun _ => q.look >>= fun now => modifyGet (q.opening now) >>= close := by
    simp only [Query.visit, map_bind, hfollow]
  rw [hvisit]
  cases q with
  | cached i => rfl
  | cachedPrimary => rfl
  | refresh i => rfl
  | refreshPrimary => rfl

/-- Apart from what it tells of its queries, an operation does what it does anyway. -/
theorem discard_visits (op : Operation) :
    discard (op.visits : Job (Shared β σ) (List Visit)) = op.perform := by
  have hvisit (q : Query) :
      discard ((fun v => [v]) <$> q.visit : Job (Shared β σ) (List Visit)) = discard q.perform := by
    rw [Job.discard_map, ← answer_visit, Job.discard_map]
  have hother (h : op.query? = none) :
      discard (op.visits : Job (Shared β σ) (List Visit)) = op.perform := by
    rw [Operation.visits, h]
    exact (Job.discard_map _ _).trans (Job.discard_unit _)
  cases op with
  | call c =>
    cases c with
    | cached i | cachedPrimary | refresh i | refreshPrimary =>
      exact (hvisit _).trans (Job.discard_map _ _).symm
    | _ => exact hother rfl
  | snapshot =>
    exact (hvisit _).trans (Job.discard_map (fun a : Answer => a.snapshot.getD .sentinel) _).symm
  | _ => exact hother rfl

/-- The telling takes no step of its own. -/
theorem discard_allVisits (ops : List Operation) :
    discard (allVisits ops : Job (Shared β σ) (List Visit)) = operate ops := by
  induction ops with
  | nil => rfl
  | cons op ops ih =>
    have hrest (vs : List Visit) :
        discard (allVisits ops >>= fun more => pure (vs ++ more) : Job (Shared β σ) (List Visit)) =
          operate ops :=
      (Job.discard_map (vs ++ ·) (allVisits ops)).trans ih
    calc discard (allVisits (op :: ops) : Job (Shared β σ) (List Visit))
        = op.visits >>= fun _ => operate ops := by simp only [allVisits, Job.discard_bind, hrest]
      _ = discard op.visits >>= fun _ => operate ops := (Job.bind_discard _ _).symm
      _ = operate (op :: ops) := by rw [discard_visits, operate]

variable {w w' : Shared β σ}

/-- A run that tells of its queries is a run of the operations. -/
theorem run_operate {ops : List Operation} {vs : List Visit}
    (h : (allVisits ops : Job (Shared β σ) (List Visit)).run w = some (vs, w')) :
    (operate ops : Job (Shared β σ) Unit).run w = some ((), w') := by
  rw [← discard_allVisits]
  exact (Job.run_bind _ _ _).trans (by rw [h]; rfl)

theorem run_perform {q : Query} {v : Visit}
    (h : (q.visit : Job (Shared β σ) Visit).run w = some (v, w')) :
    (q.perform : Job (Shared β σ) Answer).run w = some (v.answer, w') := by
  rw [← answer_visit]
  exact (Job.run_bind _ _ _).trans (by rw [h]; rfl)

end Programs

/-! ### What a query does -/

section Opening

variable {β : Type} {s : Monitor β} {q : Query} {p : Pending} {now : Instant} {a : Answer}

def Query.absent : Query → Answer
  | .cachedPrimary => .fresh .sentinel
  | .cached _ | .refresh _ | .refreshPrimary => .notFound

/-- A query that does not ask the registry has found its key in the cache, or there is no device. -/
theorem answered_of_opening (h : (q.opening now s).1 = .answered a) :
    (∃ x, s.cache.held? (q.key s.inventory) = some x ∧ a = .cached x.2) ∨
    s.inventory.slot? (q.index s.inventory) = none ∧
      a = q.absent := by
  -- a query that goes to its slot is answered at once only if there is none
  have hslot {k : Cache.Key} {o : Option Slot} (h : Opening.ofSlot k o = .answered a) :
      o = none ∧ a = .notFound := by
    cases o with
    | none =>
      cases h
      exact ⟨rfl, rfl⟩
    | some slot => cases h
  -- a hit was held under the key, whatever its age
  have hhit {k : Cache.Key} {r : Reading} {c : Cache} (h : s.cache.get now k = (some r, c)) :
      ∃ x, s.cache.held? k = some x ∧ Answer.cached r = .cached x.2 := by
    have hr : (s.cache.get now k).1 = some r := by rw [h]
    rw [Cache.get_eq] at hr
    obtain ⟨e, he, rfl⟩ := Option.map_eq_some_iff.1 hr
    obtain ⟨he, _⟩ := Option.filter_eq_some_iff.1 he
    exact ⟨(e.createdAt, e.snapshot), by simp [Cache.held?, he], rfl⟩
  cases q with
  | cached i =>
    simp only [Query.opening, openCached] at h
    split at h
    · rename_i hget
      cases h
      exact Or.inl (hhit hget)
    · exact Or.inr (hslot h)
  | cachedPrimary =>
    simp only [Query.opening, openPrimary] at h
    split at h
    · rename_i hget
      cases h
      exact Or.inl (hhit hget)
    · split at h
      · rename_i hs
        cases h
        exact Or.inr ⟨hs, rfl⟩
      · cases h
  | refresh i =>
    have ho : (openRefresh i s).1 = .ofSlot (.device i) (s.inventory.slot? i) := by
      rcases openRefresh_cases i s with ho | ho <;> rw [ho]
    exact Or.inr (hslot (ho.symm.trans h))
  | refreshPrimary =>
    simp only [Query.opening, openRefreshPrimary] at h
    split at h
    · rename_i hs
      cases h
      exact Or.inr ⟨hs, rfl⟩
    · cases h

/-- A query that asks the registry leaves nothing in the cache under its key. -/
theorem held?_of_pending (h : (q.opening now s).1 = .pending p) :
    (q.opening now s).2.cache.held? p.key = none := by
  obtain ⟨hk, -⟩ := pending_of_opening h
  -- a look-up that misses leaves nothing behind
  have hmiss {k : Cache.Key} (h : (s.cache.get now k).1 = none) :
      (s.cache.get now k).2.held? k = none := by
    rw [Cache.get_eq, Option.map_eq_none_iff] at h
    have hitem : (s.cache.get now k).2.item? k = none := by
      rw [Cache.item?_get, if_pos rfl, h]
      rfl
    simp [Cache.held?, hitem]
  rw [hk]
  cases q with
  | cached i =>
    rw [Query.opening, cache_openCached]
    simp only [Query.opening, openCached] at h
    split at h
    · cases h
    · rename_i hget
      exact hmiss (congrArg Prod.fst hget)
  | cachedPrimary =>
    rw [Query.opening, cache_openPrimary]
    simp only [Query.opening, openPrimary] at h
    split at h
    · cases h
    · rename_i hget
      exact hmiss (congrArg Prod.fst hget)
  | refresh i =>
    rcases openRefresh_cases i s with ho | ho
    · simp [Query.opening, ho, invalidate, Query.key, Cache.held?_invalidate]
    · simp [Query.opening, ho, invalidate, Query.key, Cache.held?_invalidate]
  | refreshPrimary =>
    simp only [Query.opening, openRefreshPrimary] at h ⊢
    split at h
    · cases h
    · rename_i slot hs
      have hi : slot.index = s.inventory.primaryIndex := (Inventory.slot?_eq_some.1 hs).2.1
      simp [invalidate, Query.key, Cache.held?_invalidate, hi]

end Opening

inductive Visit.Does {β : Type} (v : Visit) (s : Monitor β) : Monitor β → Prop
  | answered (a : Answer) (ho : (v.query.opening v.looked s).1 = .answered a)
    (hc : v.course = .answered a) : v.Does s (v.query.opening v.looked s).2
  | refreshed (p : Pending) (fresh : Reading) (now : Instant)
    (ho : (v.query.opening v.looked s).1 = .pending p) (hc : v.course = .refreshed p fresh now) :
    v.Does s (publish p fresh now (v.query.opening v.looked s).2).2
  | failed (p : Pending) (status : Status) (ho : (v.query.opening v.looked s).1 = .pending p)
    (hc : v.course = .failed p status) (hstatus : status = .noBackend ∨ status = .detectionFailed) :
    v.Does s (v.query.opening v.looked s).2

section Ends

open Job (Ends ends_pure ends_bind)
open Shared (Outside outside_pure outside_onOutside ends_get ends_modifyGet ends_now ends_report)

variable {β σ : Type} [BackendCalls β (StateM σ)] [Surroundings σ] {w : Shared β σ}

theorem ends_follow {o : Opening} {Q : Course → Shared β σ → Prop}
    (hanswered : ∀ a, o = .answered a → Q (.answered a) w)
    (hrefreshed : ∀ p fresh t x, o = .pending p → Q (.refreshed p fresh t)
      { w with monitor := (publish p fresh t w.monitor).2, outside := x })
    (hfailed : ∀ p status x, o = .pending p → status = .noBackend ∨ status = .detectionFailed →
      Q (.failed p status) { w with outside := x }) :
    Ends (follow o : Job (Shared β σ) Course) w Q := by
  cases o with
  | answered a => exact ends_pure (hanswered a rfl)
  | pending p =>
    refine ends_bind (ends_bind (ends_get ((Registry.outside_refresh _ _ w).mono ?_)))
    intro x w' hx
    obtain ⟨status, fresh⟩ := x
    obtain ⟨hstatus, o, rfl⟩ := hx
    dsimp only at hstatus ⊢
    -- with a success the query goes on to publish, with anything else it reports
    rcases hstatus with rfl | ⟨hstatus, rfl⟩
    · exact ends_bind (ends_now fun t x => ends_modifyGet (hrefreshed p fresh t x rfl))
    · have hfails : status.isOk = false := by
        rcases hstatus with rfl | rfl <;> decide
      rw [hfails, if_neg Bool.false_ne_true]
      exact ends_bind (ends_report fun x => ends_pure (hfailed p status x rfl hstatus))

/-- A detection is stored before anything else happens, unless one is stored already. -/
theorem ends_ready (hfree : w.detecting = false) :
    Ends (ensureDetected : Job (Shared β σ) Unit) w fun _ w' => w'.detecting = false ∧
      w'.monitor.inventory.initialized = true ∧
      (w'.monitor = w.monitor ∨ w.monitor.inventory.initialized = false ∧
        ∃ found, w'.monitor = install found w.monitor) := by
  refine ends_ensureDetected hfree (fun hi => ⟨hfree, hi, Or.inl rfl⟩) fun hi => ?_
  refine (Registry.outside_detectAll _ _).mono ?_
  intro found w' hw'
  obtain ⟨_, o, rfl⟩ := hw'
  exact ⟨rfl, rfl, Or.inr ⟨hi, found, rfl⟩⟩

omit [BackendCalls β (StateM σ)] in
theorem outside_look (q : Query) : Outside (q.look : Job (Shared β σ) Instant) fun _ => True := by
  cases q with
  | cached i | cachedPrimary => exact outside_onOutside _
  | refresh i | refreshPrimary => exact outside_pure trivial

/-- A query comes to an end, and has done what its course says. -/
theorem ends_visit (hfree : w.detecting = false) (q : Query) :
    Ends (q.visit : Job (Shared β σ) Visit) w fun v w' => v.query = q ∧ w'.detecting = false ∧
      ∃ w₁, (ensureDetected : Job (Shared β σ) Unit).run w = some ((), w₁) ∧
        v.Does w₁.monitor w'.monitor := by
  -- the detection and the look at the clock come first, and neither changes what is stored
  refine ends_bind ((ends_ready hfree).run_eq.mono ?_)
  intro u w₁ hready
  obtain ⟨hrun, hfree₁, _⟩ := hready
  refine ends_bind ((outside_look q w₁).mono ?_)
  intro now w₂ hlook
  obtain ⟨_, o, rfl⟩ := hlook
  refine ends_bind (ends_modifyGet (ends_bind (ends_follow ?_ ?_ ?_)))
  · intro a ho
    exact ends_pure ⟨rfl, hfree₁, w₁, hrun, .answered a ho rfl⟩
  · intro p fresh t x ho
    exact ends_pure ⟨rfl, hfree₁, w₁, hrun, .refreshed p fresh t ho rfl⟩
  · intro p status x ho hstatus
    exact ends_pure ⟨rfl, hfree₁, w₁, hrun, .failed p status ho rfl hstatus⟩

end Ends

end GpuTelemetry.Monitor
