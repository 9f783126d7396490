import GpuTelemetry.Proofs.Monitor.Moves
/-!
Operations of a monitor that run at the same time. Each is a job, and the jobs take their steps in any
order. Whatever the order, the monitor goes through a history: the moves of all jobs, one after the
other, are a run of events.
-/

namespace GpuTelemetry.Monitor

variable {β σ α : Type}

/-- Jobs take steps in any order, each as soon as it need not wait. -/
inductive Interleaves (jobs : ℕ → Job (Shared β σ) α) (w : Shared β σ) :
    (ℕ → Job (Shared β σ) α) → Shared β σ → Prop
  | start : Interleaves jobs w jobs w
  | step {jobs' : ℕ → Job (Shared β σ) α} {w' w'' : Shared β σ} {i : ℕ} {job : Job (Shared β σ) α}
    (h : Interleaves jobs w jobs' w') (hnext : (jobs' i).next? w' = some (job, w'')) :
    Interleaves jobs w (Function.update jobs' i job) w''

/-- One of the jobs may run to its end. -/
theorem Interleaves.run {jobs jobs' : ℕ → Job (Shared β σ) α} {w₀ w w' : Shared β σ} {i : ℕ} {a : α}
    (h : Interleaves jobs w₀ jobs' w) (hrun : (jobs' i).run w = some (a, w')) :
    ∃ jobs'', Interleaves jobs w₀ jobs'' w' ∧ jobs'' i = .done a := by
  generalize hjob : jobs' i = job at hrun
  -- one step of the job is one step of the interleaving
  induction job generalizing jobs' w with
  | done b =>
    cases hrun
    exact ⟨jobs', h, hjob⟩
  | step ready update next ih =>
    rw [Job.run] at hrun
    split at hrun
    · rename_i hready
      have hnext : (jobs' i).next? w = some (next w, update w) := by
        rw [hjob, Job.next?, if_pos hready]
      exact ih w (h.step hnext) (Function.update_self i _ _) hrun
    · cases hrun

/-- The queries of the jobs, job by job, under different numbers below `next`. -/
structure Accounts (inFlight : ℕ → Option Pending) (next : ℕ) (queries : ℕ → List Pending)
    (ids : ℕ → List ℕ) : Prop where
  flying : ∀ i, (ids i).map inFlight = (queries i).map some
  old : ∀ i, ∀ id ∈ ids i, id < next
  nodup : ∀ i, (ids i).Nodup
  disjoint : ∀ i j, i ≠ j → ∀ id ∈ ids i, id ∉ ids j

section Accounts

variable {inFlight : ℕ → Option Pending} {next : ℕ} {queries : ℕ → List Pending}
  {ids : ℕ → List ℕ} {i : ℕ} {p : Pending} {ps : List Pending}

theorem map_update {xs : List ℕ} {id : ℕ} {x : Option Pending} (hid : id ∉ xs) :
    xs.map (Function.update inFlight id x) = xs.map inFlight := by
  refine List.map_congr_left fun a ha => Function.update_of_ne ?_ _ _
  intro heq
  subst heq
  exact hid ha

theorem Accounts.next_not_mem (h : Accounts inFlight next queries ids) (i : ℕ) : next ∉ ids i :=
  fun hmem => Nat.lt_irrefl _ (h.old i next hmem)

/-- A query that is answered at once takes a number and is never in flight. -/
theorem Accounts.skip (h : Accounts inFlight next queries ids) :
    Accounts (Function.update inFlight next none) (next + 1) queries ids := by
  refine ⟨fun i => ?_, fun i id hid => Nat.lt_succ_of_lt (h.old i id hid), h.nodup, h.disjoint⟩
  rw [map_update (h.next_not_mem i), h.flying]

/-- A query that a job opens is its innermost one. -/
theorem Accounts.push (h : Accounts inFlight next queries ids) (i : ℕ) (p : Pending) :
    Accounts (Function.update inFlight next (some p)) (next + 1)
      (Function.update queries i (p :: queries i)) (Function.update ids i (next :: ids i)) := by
  refine ⟨fun j => ?_, fun j id hid => ?_, fun j => ?_, fun j k hjk id hid => ?_⟩
  · by_cases hj : j = i
    · subst hj
      simp [map_update (h.next_not_mem j), h.flying]
    · simp [Function.update_of_ne hj, map_update (h.next_not_mem j), h.flying]
  · by_cases hj : j = i
    · subst hj
      rw [Function.update_self] at hid
      rcases List.mem_cons.1 hid with rfl | hid
      · exact Nat.lt_succ_self _
      · exact Nat.lt_succ_of_lt (h.old j id hid)
    · rw [Function.update_of_ne hj] at hid
      exact Nat.lt_succ_of_lt (h.old j id hid)
  · by_cases hj : j = i
    · subst hj
      simp [h.next_not_mem j, h.nodup j]
    · simp [Function.update_of_ne hj, h.nodup j]
  · -- only one of the two jobs can be the one with the new number
    by_cases hj : j = i
    · subst hj
      rw [Function.update_of_ne (Ne.symm hjk)]
      rw [Function.update_self] at hid
      rcases List.mem_cons.1 hid with rfl | hid
      · exact h.next_not_mem k
      · exact h.disjoint j k hjk id hid
    · rw [Function.update_of_ne hj] at hid
      by_cases hk : k = i
      · subst hk
        rw [Function.update_self, List.mem_cons]
        rintro (rfl | hmem)
        · exact h.next_not_mem j hid
        · exact h.disjoint j k hjk id hid hmem
      · rw [Function.update_of_ne hk]
        exact h.disjoint j k hjk id hid

/-- The innermost query of a job comes to an end. -/
theorem Accounts.pop (h : Accounts inFlight next queries ids) (hi : queries i = p :: ps) :
    ∃ id rest, inFlight id = some p ∧ Accounts (Function.update inFlight id none) next
      (Function.update queries i ps) (Function.update ids i rest) := by
  have hfly := h.flying i
  rw [hi, List.map_cons] at hfly
  obtain ⟨id, rest, hids, hp, hrest⟩ := List.map_eq_cons_iff.1 hfly
  have hnodup := h.nodup i
  -- no job gets a number it did not have
  have hsub : ∀ j, ∀ x ∈ Function.update ids i rest j, x ∈ ids j := by
    intro j x hx
    by_cases hj : j = i
    · subst hj
      rw [Function.update_self] at hx
      simp [hids, hx]
    · rwa [Function.update_of_ne hj] at hx
  rw [hids, List.nodup_cons] at hnodup
  refine ⟨id, rest, hp, fun j => ?_, fun j x hx => h.old j x (hsub j x hx), fun j => ?_,
    fun j k hjk x hx hx' => h.disjoint j k hjk x (hsub j x hx) (hsub k x hx')⟩
  · by_cases hj : j = i
    · subst hj
      simp [map_update hnodup.1, hrest]
    · have hid : id ∉ ids j := h.disjoint i j (Ne.symm hj) id (by simp [hids])
      simp [Function.update_of_ne hj, map_update hid, h.flying]
  · by_cases hj : j = i
    · subst hj
      simp [hnodup.2]
    · simp [Function.update_of_ne hj, h.nodup j]

end Accounts

/-- Of those of which one at most holds, another may come to hold if none of the others does. -/
theorem alone_update {P : Type} (held : P → Prop) {f : ℕ → P} {i : ℕ} {x : P}
    (h : ∀ j k, held (f j) → held (f k) → j = k) (hx : held x → ∀ j, j ≠ i → ¬ held (f j)) (j k : ℕ)
    (hj : held (Function.update f i x j)) (hk : held (Function.update f i x k)) : j = k := by
  -- two holders: both are `i`, one is, or none
  rcases eq_or_ne j i with rfl | hji
  · rcases eq_or_ne k j with rfl | hkj
    · rfl
    · rw [Function.update_self] at hj
      rw [Function.update_of_ne hkj] at hk
      exact absurd hk (hx hj k hkj)
  · rw [Function.update_of_ne hji] at hj
    rcases eq_or_ne k i with rfl | hki
    · rw [Function.update_self] at hk
      exact absurd hj (hx hk j hji)
    · rw [Function.update_of_ne hki] at hk
      exact h j k hj hk

/-- The state of the jobs beside that of the events: one monitor, the same queries in flight, and at
most one job that detects. -/
structure Tracks (jobs : ℕ → Job (Shared β σ) α) (w : Shared β σ) (s : Traffic β)
    (places : ℕ → Place) : Prop where
  monitor : s.monitor = w.monitor
  obeys : ∀ i, Obeys (jobs i) (places i) fun _ _ => True
  fits : ∀ i, (places i).Fits w
  alone : ∀ i j, (places i).lock ≠ .free → (places j).lock ≠ .free → i = j
  first : ∀ i, (places i).lock = .first → s.detecting = some true
  quiet : (∀ i, (places i).lock ≠ .first) → s.detecting = none
  accounts : ∃ ids, Accounts s.inFlight s.next (fun i => (places i).inFlight) ids

section Simulation

variable {jobs : ℕ → Job (Shared β σ) α} {w w' : Shared β σ} {s s' : Traffic β}
  {places : ℕ → Place} {i : ℕ} {pl : Place} {job : Job (Shared β σ) α}

/-- While another job holds the lock, this one neither has it nor gets it. -/
theorem Tracks.others_free (h : Tracks jobs w s places) (hmove : Moves w w' (places i) pl) {j : ℕ}
    (hj : j ≠ i) (hlock : (places j).lock ≠ .free) : (places i).lock = .free ∧ pl.lock = .free := by
  have hfree : (places i).lock = .free := by
    by_contra hi
    exact hj (h.alone j i hlock hi)
  exact ⟨hfree, hmove.lock_of_free hfree ((h.fits j).detecting hlock)⟩

/-- After a step of one job only what the events have become needs to be shown. -/
theorem Tracks.of_move (h : Tracks jobs w s places) (hmove : Moves w w' (places i) pl)
    (hnext : Obeys job pl fun _ _ => True) (hm : s'.monitor = w'.monitor)
    (hd : s'.detecting = if pl.lock = .first then some true
      else if (places i).lock = .first then none else s.detecting)
    (hacc : ∃ ids, Accounts s'.inFlight s'.next
      (Function.update (fun j => (places j).inFlight) i pl.inFlight) ids) :
    Tracks (Function.update jobs i job) w' s' (Function.update places i pl) where
  monitor := hm
  obeys j := by
    rcases eq_or_ne j i with rfl | hj
    · simpa using hnext
    · simpa [hj] using h.obeys j
  fits := by
    refine (Function.forall_update_iff places fun _ p => p.Fits w').2
      ⟨hmove.fits (h.fits i), fun j hj => ?_⟩
    exact hmove.fits_other (h.fits j) fun hlock => (h.others_free hmove hj hlock).1
  alone := by
    refine alone_update (fun p : Place => p.lock ≠ .free) h.alone fun hpl j hj hlock => ?_
    exact hpl (h.others_free hmove hj hlock).2
  first := by
    refine (Function.forall_update_iff places fun _ p => p.lock = .first → s'.detecting = some true).2
      ⟨fun hpl => by rw [hd, if_pos hpl], fun j hj hlock => ?_⟩
    obtain ⟨hfree, hfree'⟩ := h.others_free hmove hj (by simp [hlock])
    rw [hd, hfree, hfree', if_neg (by simp), if_neg (by simp)]
    exact h.first j hlock
  quiet hno := by
    obtain ⟨hpl, hrest⟩ := (Function.forall_update_iff places fun _ p => p.lock ≠ .first).1 hno
    rw [hd, if_neg hpl]
    -- either this job has just ended the first detection, or nobody was in one
    by_cases hi : (places i).lock = .first
    · rw [if_pos hi]
    · rw [if_neg hi]
      refine h.quiet fun j => ?_
      rcases eq_or_ne j i with rfl | hj
      · exact hi
      · exact hrest j hj
  accounts := by
    have hstack : (fun j => (Function.update places i pl j).inFlight) =
        Function.update (fun j => (places j).inFlight) i pl.inFlight :=
      Function.comp_update Place.inFlight places i pl
    rw [hstack]
    exact hacc

theorem step_publishes {id : ℕ} {p : Pending} (hp : s.inFlight id = some p) (fresh : Reading)
    (now : Instant) : s.step (.publishes id fresh now) = some { s with
      monitor := (publish p fresh now s.monitor).2
      inFlight := Function.update s.inFlight id none } := by
  rw [Traffic.step, hp, Option.map_some]

theorem step_fails {id : ℕ} {p : Pending} (hp : s.inFlight id = some p) :
    s.step (.fails id) = some { s with inFlight := Function.update s.inFlight id none } := by
  rw [Traffic.step, hp, Option.map_some]

theorem step_finds {first : Bool} (hd : s.detecting = some first) (found : List Reading) :
    s.step (.finds found) = some { s with
      monitor := if first then install found s.monitor else reinstall found s.monitor
      detecting := none } := by
  rw [Traffic.step, hd, Option.map_some]

theorem foldlM_singleton {ev : Event} (hs : s.step ev = some s') :
    [ev].foldlM Traffic.step s = some s' := by
  rw [List.foldlM_cons, hs]
  rfl

def CatchesUp (s : Traffic β) (jobs : ℕ → Job (Shared β σ) α) (w : Shared β σ)
    (places : ℕ → Place) : Prop :=
  ∃ (es : List Event) (s' : Traffic β), es.foldlM Traffic.step s = some s' ∧ Tracks jobs w s' places

/-- While a job holds the lock, nobody else detects. -/
theorem Tracks.detecting_of_held (h : Tracks jobs w s places) (hheld : (places i).lock = .held) :
    s.detecting = none := by
  refine h.quiet fun j hj => ?_
  have hji : j = i := h.alone j i (by simp [hj]) (by simp [hheld])
  rw [hji, hheld] at hj
  cases hj

theorem Tracks.detecting_of_lock (h : Tracks jobs w s places) (hlock : pl.lock = (places i).lock) :
    s.detecting = if pl.lock = .first then some true
      else if (places i).lock = .first then none else s.detecting := by
  rw [hlock]
  by_cases hf : (places i).lock = .first
  · rw [if_pos hf, h.first i hf]
  · rw [if_neg hf, if_neg hf]

/-! The moves come in three groups: those of a detection leave the queries in flight, those of a query
leave the lock, and the others leave both. Each changes the monitor in some way `f`. -/

theorem Tracks.detects (h : Tracks jobs w s places) (hmove : Moves w w' (places i) pl)
    (hnext : Obeys job pl fun _ _ => True) (hfly : pl.inFlight = (places i).inFlight)
    {d : Option Bool} (hd : d = if pl.lock = .first then some true
      else if (places i).lock = .first then none else s.detecting)
    (f : Monitor β → Monitor β) (hm : w'.monitor = f w.monitor) {es : List Event}
    (hrun : es.foldlM Traffic.step s = some { s with monitor := f s.monitor, detecting := d }) :
    CatchesUp s (Function.update jobs i job) w' (Function.update places i pl) := by
  refine ⟨es, _, hrun, h.of_move hmove hnext (by rw [hm, h.monitor]) hd ?_⟩
  rw [hfly, Function.update_eq_self]
  exact h.accounts

theorem Tracks.beside (h : Tracks jobs w s places) (hmove : Moves w w' (places i) pl)
    (hnext : Obeys job pl fun _ _ => True) (hplace : places i = pl) (f : Monitor β → Monitor β)
    (hm : w'.monitor = f w.monitor) {es : List Event}
    (hrun : es.foldlM Traffic.step s = some { s with monitor := f s.monitor }) :
    CatchesUp s (Function.update jobs i job) w' (Function.update places i pl) :=
  h.detects hmove hnext (by rw [hplace]) (h.detecting_of_lock (by rw [hplace])) f hm hrun

theorem Tracks.opens (h : Tracks jobs w s places) (hmove : Moves w w' (places i) pl)
    (hnext : Obeys job pl fun _ _ => True) {q : Query} {now : Instant}
    (hm : w'.monitor = (q.opening now w.monitor).2)
    (hpl : pl = { places i with
      inFlight := (q.opening now w.monitor).1.pending?.toList ++ (places i).inFlight }) :
    CatchesUp s (Function.update jobs i job) w' (Function.update places i pl) := by
  obtain ⟨ids, hids⟩ := h.accounts
  have hlock : pl.lock = (places i).lock := by rw [hpl]
  have hfly : pl.inFlight =
      (q.opening now w.monitor).1.pending?.toList ++ (places i).inFlight := by rw [hpl]
  refine ⟨[.opens q now], _, foldlM_singleton rfl,
    h.of_move hmove hnext (by rw [hm, h.monitor]) (h.detecting_of_lock hlock) ?_⟩
  rw [hfly, h.monitor]
  -- a query that is answered at once takes a number too, but does not come into flight
  cases hp : (q.opening now w.monitor).1.pending? with
  | none => exact ⟨ids, by simpa using hids.skip⟩
  | some p => exact ⟨_, hids.push i p⟩

/-- The innermost query of a job is over. -/
theorem Tracks.closes (h : Tracks jobs w s places) (hmove : Moves w w' (places i) pl)
    (hnext : Obeys job pl fun _ _ => True) {p : Pending} {ps : List Pending} {lock : Lock}
    (hplace : places i = ⟨p :: ps, lock⟩) (hpl : pl = ⟨ps, lock⟩) (f : Monitor β → Monitor β)
    (hm : w'.monitor = f w.monitor) {ev : ℕ → Event}
    (hs : ∀ id, s.inFlight id = some p → s.step (ev id) =
      some { s with monitor := f s.monitor, inFlight := Function.update s.inFlight id none }) :
    CatchesUp s (Function.update jobs i job) w' (Function.update places i pl) := by
  obtain ⟨ids, hids⟩ := h.accounts
  obtain ⟨id, rest, hp, hpop⟩ := hids.pop (congrArg Place.inFlight hplace)
  have hlock : pl.lock = (places i).lock := by rw [hpl, hplace]
  refine ⟨[ev id], _, foldlM_singleton (hs id hp),
    h.of_move hmove hnext (by rw [hm, h.monitor]) (h.detecting_of_lock hlock) ?_⟩
  rw [hpl]
  exact ⟨_, hpop⟩

/-- Every move of a job is a run of events, of at most two. -/
theorem Tracks.step (h : Tracks jobs w s places) (hmove : Moves w w' (places i) pl)
    (hnext : Obeys job pl fun _ _ => True) :
    CatchesUp s (Function.update jobs i job) w' (Function.update places i pl) := by
  -- the moves are about the place itself, so it has to be a variable for the cases
  have hmove' := hmove
  generalize hplace : places i = pl₀ at hmove'
  have hheld (hlock : pl₀.lock = .held) : s.detecting = none := by
    rw [← hplace] at hlock
    exact h.detecting_of_held hlock
  cases hmove' with
  | looks _ hm => exact h.beside hmove hnext hplace id hm List.foldlM_nil
  | selects _ j hm =>
    have hs : s.step (.selects j (selectPrimary j s.monitor).1) =
        some { s with monitor := (selectPrimary j s.monitor).2 } := if_pos rfl
    exact h.beside hmove hnext hplace (fun m => (selectPrimary j m).2) hm (foldlM_singleton hs)
  | stores _ j fresh hm =>
    have hs : s.step (.stores j fresh) =
        some { s with monitor := storeSame j fresh s.monitor } := rfl
    exact h.beside hmove hnext hplace _ hm (foldlM_singleton hs)
  | empties _ hm =>
    have hs : s.step .empties = some { s with monitor := clearCache s.monitor } := rfl
    exact h.beside hmove hnext hplace _ hm (foldlM_singleton hs)
  | opens _ q now hm => exact h.opens hmove hnext hm (by rw [hplace])
  | publishes p ps lock fresh now hm =>
    exact h.closes hmove hnext hplace rfl (fun m => (publish p fresh now m).2) hm
      fun _ hp => step_publishes hp fresh now
  | fails p ps lock hm => exact h.closes hmove hnext hplace rfl id hm fun _ hp => step_fails hp
  | locks ps _ hm | unlocks ps hm =>
    exact h.detects hmove hnext (by rw [hplace]) (by rw [hplace]; rfl) id hm List.foldlM_nil
  | checks ps hi hm =>
    have hs : s.step (.detects true) = some { s with detecting := some true } :=
      if_pos ⟨hheld rfl, fun _ => by rw [h.monitor, hi]⟩
    exact h.detects hmove hnext (by rw [hplace]) rfl id hm (foldlM_singleton hs)
  | installs ps found hm =>
    have hs := step_finds (h.first i (by rw [hplace])) found
    exact h.detects hmove hnext (by rw [hplace]) (by rw [hplace]; rfl) _ hm (foldlM_singleton hs)
  | reinstalls ps found hm =>
    have hs : s.step (.detects false) = some { s with detecting := some false } :=
      if_pos ⟨hheld rfl, nofun⟩
    have hrun : [.detects false, .finds found].foldlM Traffic.step s =
        some { s with monitor := reinstall found s.monitor, detecting := none } := by
      rw [List.foldlM_cons, hs]
      exact foldlM_singleton (step_finds (s := { s with detecting := some false }) rfl found)
    exact h.detects hmove hnext (by rw [hplace]) (by rw [hplace]; exact (hheld rfl).symm) _ hm hrun

/-- A step of a job that obeys is a move to a place from which it obeys. -/
theorem Obeys.next? {job' : Job (Shared β σ) α} {Q : α → Place → Prop} (h : Obeys job pl Q)
    (hfits : pl.Fits w) (hnext : job.next? w = some (job', w')) :
    ∃ pl', Moves w w' pl pl' ∧ Obeys job' pl' Q := by
  cases job with
  | done a => cases hnext
  | step ready update next =>
    obtain ⟨hready, heq⟩ := Option.ite_some_none_eq_some.1 hnext
    cases heq
    exact h w hfits hready

/-- At first nothing is in flight and nobody detects. -/
theorem tracks_start {reg : Registry β} {policy : Cache.Policy} {o : σ}
    (hjobs : ∀ i, Keeps (jobs i)) :
    Tracks jobs { monitor := new reg policy, outside := o } (Traffic.start reg policy)
      fun _ => {} where
  monitor := rfl
  obeys i := (hjobs i {}).mono fun _ _ _ => trivial
  fits i := trivial
  alone i j hi := absurd rfl hi
  first i hi := by cases hi
  quiet _ := rfl
  accounts := ⟨fun _ => [], fun _ => rfl, by simp, by simp, by simp⟩

/-- After any steps of the jobs, some events lead to a state that goes with them. -/
theorem tracks_of_interleaves {reg : Registry β} {policy : Cache.Policy} {o : σ}
    {jobs' : ℕ → Job (Shared β σ) α} (hjobs : ∀ i, Keeps (jobs i))
    (h : Interleaves jobs { monitor := new reg policy, outside := o } jobs' w) :
    ∃ es s places, Traffic.after reg policy es = some s ∧ Tracks jobs' w s places := by
  induction h with
  | start => exact ⟨[], _, _, rfl, tracks_start hjobs⟩
  | @step jobs' w' w'' i job _ hnext ih =>
    obtain ⟨es, s, places, hs, htracks⟩ := ih
    obtain ⟨pl, hmove, hobeys⟩ := (htracks.obeys i).next? (htracks.fits i) hnext
    obtain ⟨es', s', hs', htracks'⟩ := htracks.step hmove hobeys
    refine ⟨es ++ es', s', _, ?_, htracks'⟩
    rw [Traffic.after, List.foldlM_append]
    exact (congrArg (· >>= fun s => es'.foldlM Traffic.step s) hs).trans hs'

end Simulation

/-- **Every interleaving is a history.** However the steps of any number of callers interleave, each
with any sequence of calls, the monitor they share comes to a state that some history of events leads
to. -/
theorem history_of_interleaves [BackendCalls β (Job (Shared β σ))] [Surroundings σ]
    (hb : Behaved β σ) {reg : Registry β} {policy : Cache.Policy} {o : σ}
    {calls : ℕ → List Call} {jobs : ℕ → Job (Shared β σ) (List Reply)} {w : Shared β σ}
    (h : Interleaves (fun i => performAll (calls i))
      { monitor := new reg policy, outside := o } jobs w) :
    ∃ es s, Traffic.after reg policy es = some s ∧ s.monitor = w.monitor := by
  obtain ⟨es, s, places, hs, htracks⟩ :=
    tracks_of_interleaves (fun i => keeps_performAll hb (calls i)) h
  exact ⟨es, s, hs, htracks.monitor⟩

/-- A job that runs alone takes a new monitor through a history. -/
theorem history_of_run {job : Job (Shared β σ) α} (hjob : Keeps job) {reg : Registry β}
    {policy : Cache.Policy} {o : σ} {a : α} {w : Shared β σ}
    (h : job.run { monitor := new reg policy, outside := o } = some (a, w)) :
    ∃ es s, Traffic.after reg policy es = some s ∧ s.monitor = w.monitor := by
  have hstart : Interleaves (fun _ => job) { monitor := new reg policy, outside := o } (fun _ => job)
      { monitor := new reg policy, outside := o } := .start
  obtain ⟨jobs, hjobs, _⟩ := hstart.run (i := 0) h
  obtain ⟨es, s, places, hs, htracks⟩ := tracks_of_interleaves (fun _ => hjob) hjobs
  exact ⟨es, s, hs, htracks.monitor⟩

end GpuTelemetry.Monitor
