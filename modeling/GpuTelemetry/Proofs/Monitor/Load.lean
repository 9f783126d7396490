import GpuTelemetry.Proofs.Cache.History
import GpuTelemetry.Proofs.Monitor.Visit
/-!
The load on the backends. In a run of queries that may be answered from the cache, the cache has gone
through their look-ups and publications and nothing else. A reading that was published is therefore the
answer to every query of its key until its lifetime is over, and between two refreshes under one key
there lies a lifetime.
-/

namespace GpuTelemetry.Monitor

open Job (Ends ends_pure ends_bind)

variable {β σ : Type} {s s' : Monitor β} {q : Query} {v x y : Visit} {vs : List Visit}
  {k : Cache.Key} {now : Instant} {r : Reading} {policy : Cache.Policy}

/-- The key a query looks up in the cache, unless it goes past the cache. -/
def Query.lookup? : Query → Option Cache.Key
  | .cached i => some (.device i)
  | .cachedPrimary => some .primary
  | .refresh _ | .refreshPrimary => none

def Operation.Reads (op : Operation) : Prop := ∃ q k, op.query? = some q ∧ q.lookup? = some k

def Course.stored : Course → List Cache.Op
  | .refreshed p fresh now => [.put now p.key fresh]
  | .answered _ | .failed _ _ => []

def Course.fails : Course → Bool
  | .failed _ _ => true
  | .answered _ | .refreshed _ _ _ => false

def Visit.ops (v : Visit) : List Cache.Op :=
  (v.query.lookup?.map (.get v.looked)).toList ++ v.course.stored

def cacheOps (vs : List Visit) : List Cache.Op := vs.flatMap Visit.ops

def clock (vs : List Visit) : List Instant := Cache.readings (cacheOps vs)

/-- The registry was asked under `k`, and perhaps at a time from `t` on and before `t'`: that call came
after the look-up and before the reading was published. -/
def Visit.asksIn (k : Cache.Key) (t t' : ℤ) (v : Visit) : Bool :=
  match v.course with
  | .answered _ => false
  | .refreshed p _ now => p.key = k ∧ v.looked.toInt < t' ∧ t ≤ now.toInt
  | .failed p _ => p.key = k ∧ v.looked.toInt < t'

def Reuses (policy : Cache.Policy) (x y : Visit) : Prop :=
  ∀ p r t, x.course = .refreshed p r t → y.query.lookup? = some p.key → policy.Within t y.looked →
    y.answer = .cached r

theorem cacheOps_snoc : cacheOps (vs ++ [v]) = cacheOps vs ++ v.ops := by
  rw [cacheOps, List.flatMap_append, List.flatMap_singleton, cacheOps]

/-! ### One query -/

theorem key_of_lookup? (h : q.lookup? = some k) (inv : Inventory) : q.key inv = k := by
  cases q with
  | cached i => exact Option.some.inj h
  | cachedPrimary => exact Option.some.inj h
  | refresh i => cases h
  | refreshPrimary => cases h

theorem cache_opening (h : q.lookup? = some k) :
    (q.opening now s).2.cache = (s.cache.get now k).2 := by
  cases q with
  | cached i =>
    cases h
    exact cache_openCached i now s
  | cachedPrimary =>
    cases h
    exact cache_openPrimary now s
  | refresh i => cases h
  | refreshPrimary => cases h

/-- A query that finds its device in the cache is answered in its first step. -/
theorem opening_of_hit (h : q.lookup? = some k) (hget : (s.cache.get now k).1 = some r) :
    (q.opening now s).1 = .answered (.cached r) := by
  have hpair : s.cache.get now k = (some r, (s.cache.get now k).2) := Prod.ext hget rfl
  cases q with
  | cached i =>
    cases h
    rw [Query.opening, openCached, hpair]
  | cachedPrimary =>
    cases h
    rw [Query.opening, openPrimary, hpair]
  | refresh i => cases h
  | refreshPrimary => cases h

/-- In the cache a query does no more than its look-up and its publication. -/
theorem cache_of_does (hv : v.Does s s') (hk : v.query.lookup? = some k) :
    s'.cache = v.ops.foldl Cache.Op.apply s.cache := by
  have hlooked : (v.query.opening v.looked s).2.cache = (s.cache.get v.looked k).2 :=
    cache_opening hk
  have hops (c : Course) (hc : v.course = c) : v.ops = .get v.looked k :: c.stored := by
    rw [Visit.ops, hk, hc]
    rfl
  cases hv with
  | answered a ho hc =>
    rw [hops _ hc, hlooked]
    rfl
  | failed p status ho hc hstatus =>
    rw [hops _ hc, hlooked]
    rfl
  | refreshed p fresh t ho hc =>
    -- the slot has just been read, so the publication goes through
    have hinv : (v.query.opening v.looked s).2.inventory = s.inventory := inventory_opening
    have hslot := (pending_of_opening ho).2
    rw [← hinv] at hslot
    rw [hops _ hc, publish_of_slot? hslot]
    exact congrArg (·.put t p.key fresh) hlooked

theorem answer_of_hit (hv : v.Does s s') (hk : v.query.lookup? = some k)
    (hget : (s.cache.get v.looked k).1 = some r) : v.answer = .cached r := by
  have hopen := opening_of_hit hk hget
  cases hv with
  | answered a ho hc =>
    rw [ho] at hopen
    cases hopen
    rw [Visit.answer, hc]
    rfl
  | refreshed p fresh t ho hc =>
    rw [ho] at hopen
    cases hopen
  | failed p status ho hc hstatus =>
    rw [ho] at hopen
    cases hopen

/-! ### Many queries -/

theorem displaces_of_mem_ops {op : Cache.Op} (h : op ∈ v.ops) (hop : op.displaces k = true) :
    ∃ p r t, v.course = .refreshed p r t ∧ p.key = k := by
  rcases List.mem_append.1 h with hget | hput
  · obtain ⟨j, -, rfl⟩ := Option.map_eq_some_iff.1 (Option.mem_toList.1 hget)
    cases hop
  · cases hc : v.course with
    | answered a => simp [hc, Course.stored] at hput
    | failed p status => simp [hc, Course.stored] at hput
    | refreshed p r t =>
      rw [hc, Course.stored, List.mem_singleton] at hput
      subst hput
      exact ⟨p, r, t, rfl, by simpa [Cache.Op.displaces] using hop⟩

/-- What a query has published stands until another one publishes under its key. -/
theorem standing_of_published {earlier later : List Visit} {p : Pending} {t : Instant}
    (hc : x.course = .refreshed p r t)
    (hlater : ∀ z ∈ later, ∀ p' r' t', z.course = .refreshed p' r' t' → p'.key ≠ p.key) :
    Cache.Standing (cacheOps (earlier ++ x :: later)) p.key t r := by
  refine ⟨cacheOps earlier ++ (x.query.lookup?.map (.get x.looked)).toList, cacheOps later, ?_, ?_⟩
  · simp [cacheOps, Visit.ops, hc, Course.stored]
  · intro op hop
    obtain ⟨z, hz, hmem⟩ := List.mem_flatMap.1 hop
    refine Bool.eq_false_iff.2 fun hd => ?_
    obtain ⟨p', r', t', hc', hkey⟩ := displaces_of_mem_ops hmem hd
    exact hlater z hz p' r' t' hc' hkey

theorem clock_snoc (vs : List Visit) (hk : v.query.lookup? = some k) :
    ∃ rest, clock (vs ++ [v]) = clock vs ++ v.looked :: rest := by
  refine ⟨Cache.readings v.course.stored, ?_⟩
  rw [clock, cacheOps_snoc, Cache.readings, List.filterMap_append, Visit.ops, hk]
  rfl

theorem looked_mem_clock (hv : v ∈ vs) (hk : v.query.lookup? = some k) : v.looked ∈ clock vs := by
  have hop : Cache.Op.get v.looked k ∈ cacheOps vs :=
    List.mem_flatMap.2 ⟨v, hv, by simp [Visit.ops, hk]⟩
  exact List.mem_filterMap.2 ⟨_, hop, rfl⟩

def Visit.Looks (v : Visit) : Prop :=
  ∃ k, v.query.lookup? = some k ∧ ∀ p r t, v.course = .refreshed p r t → p.key = k

theorem looks_of_does (hv : v.Does s s') (hk : v.query.lookup? = some k) : v.Looks := by
  refine ⟨k, hk, fun p r t hrefreshed => ?_⟩
  cases hv with
  | answered a ho hc => simp [hc] at hrefreshed
  | failed p' status ho hc hstatus => simp [hc] at hrefreshed
  | refreshed p' fresh now ho hc =>
    rw [hc] at hrefreshed
    cases hrefreshed
    rw [(pending_of_opening ho).1, key_of_lookup? hk]

theorem ne_cached_of_refreshed {p : Pending} {r' : Reading} {t : Instant}
    (hc : v.course = .refreshed p r t) : v.answer ≠ .cached r' := by
  intro hanswer
  have hfrom : v.answer.fromCache = true := by rw [hanswer]; rfl
  simp [Visit.answer, hc, Course.answer, Answer.fresh] at hfrom

/-- A query reuses what any earlier one has published. -/
theorem reuses_of_does (hroom : policy.maxEntries = none)
    (hcache : s.cache = Cache.after policy (cacheOps vs)) (hv : v.Does s s')
    (hclock : (clock (vs ++ [v])).Pairwise Instant.UpTo) (hvs : vs.Pairwise (Reuses policy))
    (hlooks : ∀ z ∈ vs, z.Looks) (hx : x ∈ vs) : Reuses policy x v := by
  intro p r t hc hk hwithin
  obtain ⟨rest, hrest⟩ := clock_snoc vs hk
  rw [hrest] at hclock
  obtain ⟨earlier, later, rfl⟩ := List.append_of_mem hx
  -- a later query of the key would have been answered from the cache as well
  have hlater (z : Visit) (hz : z ∈ later) (p' : Pending) (r' : Reading) (t' : Instant)
      (hc' : z.course = .refreshed p' r' t') : p'.key ≠ p.key := by
    intro hkey
    obtain ⟨j, hj, hpublished⟩ := hlooks z (by simp [hz])
    have hzkey : z.query.lookup? = some p.key := by rw [hj, ← hpublished p' r' t' hc', hkey]
    have hup : z.looked.UpTo v.looked :=
      (List.pairwise_append.1 hclock).2.2 _ (looked_mem_clock (by simp [hz]) hj) _ (by simp)
    have hreuse : Reuses policy x z :=
      (List.pairwise_cons.1 (List.pairwise_append.1 hvs).2.1).1 z hz
    exact ne_cached_of_refreshed hc' (hreuse p r t hc hzkey (hwithin.of_le hup.le))
  have hstanding : Cache.Standing (cacheOps (earlier ++ x :: later)) p.key t r :=
    standing_of_published hc hlater
  have hreadings : (Cache.readings (cacheOps (earlier ++ x :: later)) ++ [v.looked]).Pairwise
      Instant.UpTo := by
    refine hclock.sublist (List.Sublist.append_left ?_ _)
    exact List.singleton_sublist.2 (by simp)
  have hget := Cache.get_of_standing hreadings (by simp [hroom]) hstanding hwithin
  rw [← hcache] at hget
  exact answer_of_hit hv hk (hget.resolve_right (Cache.not_evicted_of_unbounded hroom))

/-- What is known after some queries: the cache has gone through their operations, and they reuse what
has been published. -/
structure Served (policy : Cache.Policy) (vs : List Visit) (s : Monitor β) : Prop where
  cache : s.cache = Cache.after policy (cacheOps vs)
  looks : ∀ v ∈ vs, v.Looks
  reuses : (clock vs).Pairwise Instant.UpTo → vs.Pairwise (Reuses policy)

/-- One more query is served. -/
theorem Served.does (hroom : policy.maxEntries = none) (h : Served policy vs s) (hv : v.Does s s')
    (hk : v.query.lookup? = some k) : Served policy (vs ++ [v]) s' := by
  refine ⟨?_, fun z hz => ?_, fun hclock => ?_⟩
  · rw [cacheOps_snoc, Cache.after_append, ← h.cache]
    exact cache_of_does hv hk
  · rcases List.mem_append.1 hz with hz | hz
    · exact h.looks z hz
    · rw [List.mem_singleton.1 hz]
      exact looks_of_does hv hk
  -- the clock did not go back before this query either, so the earlier ones reuse already
  · have hearlier : (clock vs).Pairwise Instant.UpTo := by
      obtain ⟨rest, hrest⟩ := clock_snoc vs hk
      rw [hrest] at hclock
      exact (List.pairwise_append.1 hclock).1
    have hvs := h.reuses hearlier
    refine List.pairwise_append.2 ⟨hvs, List.pairwise_singleton _ _, fun x hx y hy => ?_⟩
    rw [List.mem_singleton.1 hy]
    exact reuses_of_does hroom h.cache hv hclock hvs h.looks hx

section Runs

variable [BackendCalls β (StateM σ)] [Surroundings σ] {w : Shared β σ}

/-- Queries that may be answered from the cache come to an end and are served, one after the other. -/
theorem ends_reads (hroom : policy.maxEntries = none) (hfree : w.detecting = false)
    (h : Served policy vs w.monitor) {ops : List Operation} (hops : ∀ op ∈ ops, op.Reads) :
    Ends (allVisits ops : Job (Shared β σ) (List Visit)) w fun more w' =>
      Served policy (vs ++ more) w'.monitor ∧
        more.map Visit.query = ops.filterMap Operation.query? := by
  -- on the operations, each of which is a query here and adds itself to those before it
  induction ops generalizing vs w with
  | nil =>
    refine ends_pure ⟨?_, rfl⟩
    rwa [List.append_nil]
  | cons op ops ih =>
    obtain ⟨q, k, hq, hk⟩ := hops op (by simp)
    have hop : Ends (op.visits : Job (Shared β σ) (List Visit)) w fun more w' =>
        w'.detecting = false ∧ Served policy (vs ++ more) w'.monitor ∧ more.map Visit.query = [q] := by
      rw [Operation.visits, hq]
      refine Job.ends_map ((ends_visit hfree q).mono ?_)
      intro v w' hv
      obtain ⟨rfl, hfree', w₁, hrun, hdoes⟩ := hv
      -- a detection stores what it finds, and that leaves the cache alone
      have hready : w₁.monitor.cache = w.monitor.cache := by
        obtain ⟨u, w₂, hrun₂, _, _, hmonitor⟩ := ends_ready hfree
        rw [hrun] at hrun₂
        cases hrun₂
        rcases hmonitor with hsame | ⟨_, found, hinstall⟩
        · rw [hsame]
        · rw [hinstall]
          rfl
      have hserved : Served policy vs w₁.monitor := ⟨hready.trans h.cache, h.looks, h.reuses⟩
      exact ⟨hfree', hserved.does hroom hdoes hk, rfl⟩
    refine ends_bind (hop.mono ?_)
    intro more w₁ hw₁
    obtain ⟨hfree₁, hserved, hone⟩ := hw₁
    refine ends_bind ((ih hfree₁ hserved fun op' hop' => hops op' (by simp [hop'])).mono ?_)
    intro rest w' hw'
    refine ends_pure ⟨?_, ?_⟩
    · rw [← List.append_assoc]
      exact hw'.1
    · rw [List.map_append, hone, hw'.2, List.filterMap_cons_some hq]
      rfl

/-- Of things of which no two have a property, one at most has it. -/
theorem countP_le_one {α : Type} {P : α → Bool} {xs : List α}
    (h : xs.Pairwise fun x y => P x = true → P y = false) : xs.countP P ≤ 1 := by
  induction xs with
  | nil => exact Nat.zero_le 1
  | cons x xs ih =>
    obtain ⟨hx, hxs⟩ := List.pairwise_cons.1 h
    by_cases hp : P x = true
    · have hnone : xs.countP P = 0 := by
        refine List.countP_eq_zero.2 fun y hy => ?_
        rw [hx y hy hp]
        exact Bool.false_ne_true
      have hone : (x :: xs).countP P = xs.countP P + 1 := List.countP_cons_of_pos hp
      omega
    · rw [List.countP_cons_of_neg hp]
      exact ih hxs

/-- Between two refreshes under one key there lies a lifetime. -/
theorem asksIn_of_reuses (hreuses : Reuses policy x y) (hx : x.course.fails = false)
    (hy : y.course.fails = false) (hlooks : y.Looks) {t : ℤ}
    (hask : x.asksIn k t (t + policy.bounded.ttl.toInt * 1000000) = true) :
    y.asksIn k t (t + policy.bounded.ttl.toInt * 1000000) = false := by
  refine Bool.eq_false_iff.2 fun hagain => ?_
  unfold Visit.asksIn at hask hagain
  cases hcx : x.course with
  | answered a => simp [hcx] at hask
  | failed p st => simp [hcx, Course.fails] at hx
  | refreshed p r tx =>
    cases hcy : y.course with
    | answered a => simp [hcy] at hagain
    | failed p st => simp [hcy, Course.fails] at hy
    | refreshed p' r' ty =>
      simp only [hcx, decide_eq_true_eq] at hask
      simp only [hcy, decide_eq_true_eq] at hagain
      obtain ⟨hkey, -, hpublished⟩ := hask
      obtain ⟨hkey', hlooked, -⟩ := hagain
      obtain ⟨j, hj, hown⟩ := hlooks
      have hsame : y.query.lookup? = some p.key := by rw [hj, ← hown p' r' ty hcy, hkey', hkey]
      -- within the lifetime the second query would not have asked
      have hover : ¬ policy.Within tx y.looked := fun hwithin =>
        ne_cached_of_refreshed hcy (hreuses p r tx hcx hsame hwithin)
      unfold Cache.Policy.Within at hover
      omega

/-- **One refresh in a lifetime.** In a run of queries that may be answered from the cache, with any
lifetime and no bound on the entries, a published reading is the answer to every query of its key until
its lifetime is over. If no refresh fails, at most one is made under a key in any lifetime. -/
theorem one_refresh_in_a_lifetime (reg : Registry β) (hroom : policy.maxEntries = none)
    {ops : List Operation} (hops : ∀ op ∈ ops, op.Reads) (o : σ) :
    ∃ vs w,
      (allVisits ops : Job (Shared β σ) (List Visit)).run
        { monitor := new reg policy, outside := o } = some (vs, w) ∧
      (operate ops : Job (Shared β σ) Unit).run
        { monitor := new reg policy, outside := o } = some ((), w) ∧
      vs.map Visit.query = ops.filterMap Operation.query? ∧
      ((clock vs).Pairwise Instant.UpTo →
        vs.Pairwise (Reuses policy) ∧
        ((∀ v ∈ vs, v.course.fails = false) → ∀ k t,
          vs.countP (Visit.asksIn k t (t + policy.bounded.ttl.toInt * 1000000)) ≤ 1)) := by
  -- nothing has been asked of a new monitor
  have hstart : Served policy [] (new reg policy) :=
    ⟨rfl, fun v hv => absurd hv List.not_mem_nil, fun _ => List.Pairwise.nil⟩
  obtain ⟨vs, w, hrun, hserved, hqueries⟩ :=
    ends_reads (w := { monitor := new reg policy, outside := o }) hroom rfl hstart hops
  rw [List.nil_append] at hserved
  refine ⟨vs, w, hrun, run_operate hrun, hqueries, fun hclock => ?_⟩
  have hreuses := hserved.reuses hclock
  refine ⟨hreuses, fun hok k t => countP_le_one ?_⟩
  refine hreuses.imp_of_mem fun hx hy hxy hask => ?_
  exact asksIn_of_reuses hxy (hok _ hx) (hok _ hy) (hserved.looks _ hy) hask

end Runs

def askedFourTimes : Option (List Visit × Shared StillBackend Instant) :=
  (allVisits (List.replicate 4 (.call (.cached 0))) : Job (Shared StillBackend Instant) _).run
    { monitor := new (stillRegistry .amd [card "a"]) { ttl := 3 }, outside := 0 }

/-- One device, asked for four times with a lifetime of three milliseconds: the clock gains one with every
look at it, so the first and the last query refresh. -/
theorem one_refresh_in_a_lifetime_of_four : ∃ vs w, askedFourTimes = some (vs, w) ∧
    clock vs = [0, 1000000, 2000000, 3000000, 4000000, 5000000] ∧
    vs.map (·.answer.fromCache) = [false, true, true, false] ∧
    vs.Pairwise (Reuses { ttl := 3 }) ∧ ∀ t, vs.countP (Visit.asksIn (.device 0) t (t + 3000000)) ≤ 1 := by
  have hroom : ({ ttl := 3 } : Cache.Policy).maxEntries = none := rfl
  have hreads : ∀ op ∈ List.replicate 4 (Operation.call (.cached 0)), op.Reads := by
    intro op hop
    rw [List.eq_of_mem_replicate hop]
    exact ⟨.cached 0, .device 0, rfl, rfl⟩
  obtain ⟨vs, w, hrun, _, _, h⟩ :=
    one_refresh_in_a_lifetime (stillRegistry .amd [card "a"]) hroom hreads (0 : Instant)
  have hclock : askedFourTimes.map (fun x => clock x.1) =
      some [0, 1000000, 2000000, 3000000, 4000000, 5000000] := by decide +kernel
  have hanswers : askedFourTimes.map (fun x => x.1.map (·.answer.fromCache)) =
      some [false, true, true, false] := by decide +kernel
  have hok : askedFourTimes.map (fun x => x.1.all fun v => !v.course.fails) = some true := by
    decide +kernel
  rw [askedFourTimes, hrun, Option.map_some, Option.some.injEq] at hclock hanswers hok
  have hsucceed : ∀ v ∈ vs, v.course.fails = false := by simpa using hok
  obtain ⟨hreuses, hcount⟩ := h (by rw [hclock]; decide)
  exact ⟨vs, w, hrun, hclock, hanswers, hreuses, fun t => hcount hsucceed (.device 0) t⟩

end GpuTelemetry.Monitor
