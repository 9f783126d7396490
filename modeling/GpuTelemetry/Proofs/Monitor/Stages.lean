import GpuTelemetry.Proofs.Monitor.Marks

namespace GpuTelemetry.Monitor

variable {β σ α γ : Type}

inductive Stage where
  | idle
  /-- A detection is stored, and the operation has seen that. -/
  | ready
  | locked
  /-- Under the lock, and nothing is stored. -/
  | missing
  | passing (implicit : Bool)
  /-- Under the lock, and a detection is stored. -/
  | stored
deriving DecidableEq

def Stage.Free (st : Stage) : Prop := st = .idle ∨ st = .ready

def Stage.before (implicit : Bool) : Stage := if implicit then .missing else .locked

/-- What an operation relies on at a stage, whatever others do. -/
def Stage.Fits (w : Shared β σ) : Stage → Prop
  | .idle => True
  | .ready => w.monitor.inventory.initialized = true
  | .locked => w.detecting = true
  | .missing => w.detecting = true ∧ w.monitor.inventory.initialized = false
  | .passing implicit =>
    w.detecting = true ∧ (implicit = true → w.monitor.inventory.initialized = false)
  | .stored => w.detecting = true ∧ w.monitor.inventory.initialized = true

def published (implicit : Bool) (found : List Reading) (s : Monitor β) : Monitor β :=
  if implicit then install found s else reinstall found s

inductive Steps (w w' : Shared β σ) : Mark → Stage → Stage → Prop
  | aside (st : Stage) (hst : st.Free) (h : Aside w w') : Steps w w' .aside st st
  | uses (h : Aside w w') : Steps w w' .uses .ready .ready
  | finds (st : Stage) (hst : st.Free) (hi : w.monitor.inventory.initialized = true) (h : w' = w) :
    Steps w w' .checks st .ready
  | misses (st : Stage) (hst : st.Free) (h : w' = w) : Steps w w' .checks st .idle
  | locks (st : Stage) (hst : st.Free) (hfree : w.detecting = false)
    (h : w' = { w with detecting := true }) : Steps w w' .locks st .locked
  | findsLocked (hi : w.monitor.inventory.initialized = true) (h : w' = w) :
    Steps w w' .looks .locked .stored
  | missesLocked (hi : w.monitor.inventory.initialized = false) (h : w' = w) :
    Steps w w' .looks .locked .missing
  | begins (implicit : Bool) (h : w' = w) :
    Steps w w' (.begins implicit) (.before implicit) (.passing implicit)
  | passes (implicit : Bool) (h : Outward w w') :
    Steps w w' .passes (.passing implicit) (.passing implicit)
  | publishes (implicit : Bool) (found : List Reading)
    (h : w' = { w with monitor := published implicit found w.monitor }) :
    Steps w w' (.publishes implicit found) (.passing implicit) .stored
  | unlocks (h : w' = { w with detecting := false }) : Steps w w' .unlocks .stored .ready

section Steps

variable {w w' : Shared β σ} {mark : Mark} {st st' other : Stage}

/-- Implicit or not, a publication replaces the collection. -/
theorem inventory_published (implicit : Bool) (found : List Reading) (s : Monitor β) :
    (published implicit found s).inventory = s.inventory.replace found := by
  cases implicit with
  | true => rfl
  | false => rfl

theorem Stage.Fits.detecting (h : st.Fits w) (hst : ¬ st.Free) : w.detecting = true := by
  cases st with
  | idle => exact absurd (Or.inl rfl) hst
  | ready => exact absurd (Or.inr rfl) hst
  | locked => exact h
  | missing => exact h.1
  | passing implicit => exact h.1
  | stored => exact h.1

/-- A stored detection stays stored. -/
theorem Steps.initialized (h : Steps w w' mark st st')
    (hi : w.monitor.inventory.initialized = true) : w'.monitor.inventory.initialized = true := by
  cases h with
  | aside _ _ h => rw [h.touched.initialized, hi]
  | uses h => rw [h.touched.initialized, hi]
  | finds _ _ _ h | misses _ _ h | findsLocked _ h | missesLocked _ h | begins _ h =>
    rw [h]
    exact hi
  | locks _ _ _ h | unlocks h =>
    rw [h]
    exact hi
  | passes _ h =>
    rw [h.aside.touched.initialized]
    exact hi
  | publishes implicit found h =>
    rw [h]
    dsimp only
    rw [inventory_published]
    rfl

theorem Stage.Fits.congr (h : st.Fits w) (hd : w'.detecting = w.detecting)
    (hi : w'.monitor.inventory.initialized = w.monitor.inventory.initialized) : st.Fits w' := by
  cases st with
  | idle => trivial
  | ready | locked | missing | passing | stored => simpa only [Stage.Fits, hd, hi] using h

theorem not_free_before (implicit : Bool) : ¬ (Stage.before implicit).Free := by
  cases implicit with
  | true => simp [Stage.before, Stage.Free]
  | false => simp [Stage.before, Stage.Free]

/-- Outside of the lock a step changes nothing that others rely on, but that it may take the lock. -/
theorem Steps.still (h : Steps w w' mark st st') (hst : st.Free) :
    w'.monitor.inventory.initialized = w.monitor.inventory.initialized ∧
      (w'.detecting = w.detecting ∨ w.detecting = false) := by
  cases h with
  | aside _ _ h => exact ⟨h.touched.initialized, Or.inl h.detecting⟩
  | uses h => exact ⟨h.touched.initialized, Or.inl h.detecting⟩
  | finds _ _ _ h | misses _ _ h =>
    rw [h]
    exact ⟨rfl, Or.inl rfl⟩
  | locks _ _ hfree h =>
    rw [h]
    exact ⟨rfl, Or.inr hfree⟩
  | begins implicit h => exact absurd hst (not_free_before implicit)
  | findsLocked | missesLocked | passes | publishes | unlocks => simp [Stage.Free] at hst

/-- A publication replaces the collection. -/
theorem Steps.replaces {implicit : Bool} {found : List Reading}
    (h : Steps w w' (.publishes implicit found) st st') :
    w'.monitor.inventory = w.monitor.inventory.replace found := by
  cases h with
  | publishes _ _ h =>
    rw [h]
    exact inventory_published implicit found w.monitor

/-- Nothing but a publication does. -/
theorem Steps.touched (h : Steps w w' mark st st')
    (hmark : ∀ implicit found, mark ≠ .publishes implicit found) :
    Touched w.monitor.inventory w'.monitor.inventory := by
  cases h with
  | aside _ _ h | uses h => exact h.touched
  | passes _ h => exact h.aside.touched
  | publishes implicit found => exact absurd rfl (hmark implicit found)
  | finds _ _ _ h | misses _ _ h | locks _ _ _ h | findsLocked _ h | missesLocked _ h | begins _ h
  | unlocks h =>
    rw [h]
    exact .same

/-- Who comes under the lock finds it free. -/
theorem Steps.unlocked (h : Steps w w' mark st st') (hst : st.Free) (hst' : ¬ st'.Free) :
    w.detecting = false := by
  cases h with
  | aside => exact absurd hst hst'
  | uses | finds => exact absurd (Or.inr rfl) hst'
  | misses => exact absurd (Or.inl rfl) hst'
  | locks _ _ hfree _ => exact hfree
  | begins implicit => exact absurd hst (not_free_before implicit)
  | findsLocked | missesLocked | passes | publishes | unlocks => simp [Stage.Free] at hst

/-- A step leads to a stage that fits. -/
theorem Steps.fits (h : Steps w w' mark st st') (hfits : st.Fits w) : st'.Fits w' := by
  -- once a detection is stored it stays stored
  have hinit := h.initialized
  cases h with
  | aside _ hst h => exact hfits.congr h.detecting h.touched.initialized
  | uses h => exact hinit hfits
  | finds _ _ hi h => exact hinit hi
  | misses => trivial
  | locks _ _ _ h =>
    rw [h]
    rfl
  | findsLocked hi h =>
    rw [h]
    exact ⟨hfits, hi⟩
  | missesLocked hi h =>
    rw [h]
    exact ⟨hfits, hi⟩
  | begins implicit h =>
    rw [h]
    cases implicit with
    | true => exact ⟨hfits.1, fun _ => hfits.2⟩
    | false => exact ⟨hfits, fun himplicit => absurd himplicit Bool.false_ne_true⟩
  | passes implicit h => exact hfits.congr h.aside.detecting h.aside.touched.initialized
  | publishes implicit found h =>
    rw [h]
    exact ⟨hfits.1, by rw [inventory_published]; rfl⟩
  | unlocks h => exact hinit hfits.2

/-- What others rely on is left alone, since no more than one of them is under the lock. -/
theorem Steps.fits_other (h : Steps w w' mark st st') (hother : other.Fits w)
    (halone : ¬ other.Free → st.Free) : other.Fits w' := by
  by_cases hfree : other.Free
  · rcases hfree with rfl | rfl
    · trivial
    · exact h.initialized hother
  · have hlocked := hother.detecting hfree
    obtain ⟨hi, hd⟩ := h.still (halone hfree)
    rw [hlocked] at hd
    rcases hd with hd | hd
    · exact hother.congr (hd.trans hlocked.symm) hi
    · cases hd

end Steps

/-! ### The stages of the operations -/

/-- From a stage, each step of the job does what its mark says, and `Q` holds of its result and of the
stage it ends at. -/
def Follows : Marked Mark (Shared β σ) α → Stage → (α → Stage → Prop) → Prop
  | .done a, st, Q => Q a st
  | .step mark ready update next, st, Q => ∀ w : Shared β σ, st.Fits w → ready w = true →
    ∃ st', Steps w (update w) mark st st' ∧ Follows (next w) st' Q

section Follows

variable {st : Stage} {Q : α → Stage → Prop}

theorem Follows.mono {m : Marked Mark (Shared β σ) α} {P : α → Stage → Prop} (h : Follows m st P)
    (hPQ : ∀ a st', P a st' → Q a st') : Follows m st Q := by
  induction m generalizing st with
  | done a => exact hPQ a st h
  | step mark ready update next ih =>
    intro w hfits hready
    obtain ⟨st', hstep, hnext⟩ := h w hfits hready
    exact ⟨st', hstep, ih w hnext⟩

theorem follows_bind {m : Marked Mark (Shared β σ) γ} {f : γ → Marked Mark (Shared β σ) α}
    (h : Follows m st fun c st' => Follows (f c) st' Q) : Follows (m >>= f) st Q := by
  induction m generalizing st with
  | done c => exact h
  | step mark ready update next ih =>
    intro w hfits hready
    obtain ⟨st', hstep, hnext⟩ := h w hfits hready
    exact ⟨st', hstep, ih w hnext⟩

/-- Steps of one kind stay at their stage. -/
theorem follows_all {R : Shared β σ → Shared β σ → Prop} {mark : Mark} {job : Job (Shared β σ) α}
    (hjob : job.Always R) (hsteps : ∀ w w', st.Fits w → R w w' → Steps w w' mark st st) :
    Follows (Marked.all mark job) st fun _ st' => st' = st := by
  induction job with
  | done a => rfl
  | step ready update next ih =>
    intro w hfits _
    exact ⟨st, hsteps _ _ hfits (hjob w).1, ih w (hjob w).2⟩

theorem follows_modifyGet {mark : Mark} {f : Monitor β → α × Monitor β}
    (h : ∀ w : Shared β σ, st.Fits w → ∃ st', Steps w { w with monitor := (f w.monitor).2 } mark st st' ∧
      Q (f w.monitor).1 st') :
    Follows (Marked.all mark (modifyGet f : Job (Shared β σ) α)) st Q :=
  fun w hfits _ => h w hfits

theorem follows_initialized {mark : Mark} {Q : Bool → Stage → Prop}
    (h : ∀ w : Shared β σ, st.Fits w → ∃ st', Steps w w mark st st' ∧
      Q w.monitor.inventory.initialized st') :
    Follows (Marked.all mark (isInitialized : Job (Shared β σ) Bool)) st Q :=
  fun w hfits _ => h w hfits

/-- A section under the lock begins where a pass may begin, and ends with a stored detection. -/
theorem follows_exclusively {m : Marked Mark (Shared β σ) α} (hst : st.Free)
    (h : Follows m .locked fun _ st' => st' = .stored) :
    Follows (markedExclusively m) st fun _ st' => st' = .ready := by
  have hlock : Follows (Marked.all .locks Shared.enterDetection : Marked Mark (Shared β σ) Unit) st
      fun _ st' => st' = .locked := by
    intro w _ hready
    have hfree : w.detecting = false := by simpa using hready
    exact ⟨.locked, .locks st hst hfree rfl, rfl⟩
  -- each of the three parts begins at the stage where the one before it ends
  refine follows_bind (hlock.mono ?_)
  intro u st' hst'
  subst hst'
  refine follows_bind (h.mono ?_)
  intro a st' hst'
  subst hst'
  exact follows_bind fun w _ _ => ⟨.ready, .unlocks rfl, rfl⟩

variable [BackendCalls β (Job (Shared β σ))] [Surroundings σ] (hb : Aloof β σ)

include hb

/-- A pass and the publication of what it has found. -/
theorem follows_pass (implicit : Bool) {f : List Reading → Job (Shared β σ) α}
    (hf : ∀ found, Follows (Marked.all (.publishes implicit found) (f found)) (.passing implicit)
      fun _ st' => st' = .stored) :
    Follows (Marked.lead (.begins implicit) .passes runDetection >>= fun found =>
      Marked.all (.publishes implicit found) (f found)) (.before implicit)
      fun _ st' => st' = .stored := by
  have hadmits := admits_always hb (fun _ _ => id (α := Outward (β := β) (σ := σ) _ _))
  have hrest (w : Shared β σ) : Follows
      (Marked.all .passes (w.monitor.registry.detectAll : Job (Shared β σ) (List Reading)))
      (.passing implicit) fun _ st' => st' = .passing implicit :=
    follows_all (hadmits.detectAll _) fun w w' _ h => .passes implicit h
  -- the first step has a mark of its own, since it is where the pass begins
  have hpass : Follows (Marked.lead (.begins implicit) .passes runDetection :
      Marked Mark (Shared β σ) (List Reading)) (.before implicit)
      fun _ st' => st' = .passing implicit :=
    fun w _ _ => ⟨.passing implicit, .begins implicit rfl, hrest w⟩
  refine follows_bind (hpass.mono ?_)
  intro found st' hst'
  subst hst'
  exact hf found

/-- Making sure of a detection leads to the stage where one is known to be stored. -/
theorem follows_ensureDetected (hst : st.Free) :
    Follows (markedEnsureDetected : Marked Mark (Shared β σ) Unit) st fun _ st' => st' = .ready := by
  have hfirst : Follows (markedFirst : Marked Mark (Shared β σ) Unit) .locked
      fun _ st' => st' = .stored := by
    refine follows_bind (follows_initialized fun w hfits => ?_)
    cases hi : w.monitor.inventory.initialized with
    | true => exact ⟨.stored, .findsLocked hi rfl, rfl⟩
    | false =>
      refine ⟨.missing, .missesLocked hi rfl, ?_⟩
      refine follows_pass hb true fun found => follows_modifyGet fun w _ => ?_
      exact ⟨.stored, .publishes true found rfl, rfl⟩
  -- what the look without the lock has missed may be there by the time of the look under it
  refine follows_bind (follows_initialized fun w _ => ?_)
  cases hi : w.monitor.inventory.initialized with
  | true => exact ⟨.ready, .finds st hst hi rfl, rfl⟩
  | false => exact ⟨.idle, .misses st hst rfl, follows_exclusively (Or.inl rfl) hfirst⟩

/-- An explicit detection leads to that stage too. -/
theorem follows_detectAll (hst : st.Free) :
    Follows (markedDetectAll : Marked Mark (Shared β σ) ℕ) st fun _ st' => st' = .ready := by
  refine follows_exclusively hst (follows_pass hb false fun found => follows_modifyGet fun w _ => ?_)
  exact ⟨.stored, .publishes false found rfl, rfl⟩

theorem follows_marked (op : Operation) (hst : st.Free) :
    Follows (op.marked : Marked Mark (Shared β σ) Unit) st fun _ st' => st'.Free := by
  have hready : Follows (markedEnsureDetected >>= fun _ => Marked.all .uses op.afterwards :
      Marked Mark (Shared β σ) Unit) st fun _ st' => st'.Free := by
    refine follows_bind ((follows_ensureDetected hb hst).mono ?_)
    intro u st' hst'
    subst hst'
    have huses : Follows (Marked.all .uses op.afterwards : Marked Mark (Shared β σ) Unit) .ready
        fun _ st' => st' = .ready :=
      follows_all (always_afterwards hb op) fun w w' _ h => .uses h
    exact huses.mono fun _ _ heq => Or.inr heq
  have hunready (hop : op = .cacheStats ∨ ∃ r, op = .reread r) :
      Follows (Marked.all .aside op.perform : Marked Mark (Shared β σ) Unit) st
        fun _ st' => st'.Free := by
    have haside : Follows (Marked.all .aside op.perform : Marked Mark (Shared β σ) Unit) st
        fun _ st' => st' = st :=
      follows_all (always_unready hb hop) fun w w' _ h => .aside st hst h
    exact haside.mono fun _ _ heq => heq ▸ hst
  -- in the order of the program: a detection, what needs none, and all the rest
  unfold Operation.marked
  split
  · refine follows_bind ((follows_detectAll hb hst).mono ?_)
    intro n st' hst'
    exact Or.inr hst'
  · exact hunready (Or.inr ⟨_, rfl⟩)
  · exact hunready (Or.inl rfl)
  · exact hready

/-- Operations one after the other begin and end outside of the lock. -/
theorem follows_markedOperate (ops : List Operation) (hst : st.Free) :
    Follows (markedOperate ops : Marked Mark (Shared β σ) Unit) st fun _ st' => st'.Free := by
  induction ops generalizing st with
  | nil => exact hst
  | cons op ops ih => exact follows_bind ((follows_marked hb op hst).mono fun _ _ hst' => ih hst')

end Follows

end GpuTelemetry.Monitor
