import GpuTelemetry.Monitor.Shared
import GpuTelemetry.Proofs.Registry
import GpuTelemetry.Proofs.Monitor.Traffic
import GpuTelemetry.Proofs.Monitor.Uncached

namespace GpuTelemetry.Monitor

inductive Lock where
  | free
  | held
  /-- Held, and nothing has been stored yet. -/
  | first
deriving DecidableEq

/-- Where a job stands between two steps: the queries it has in flight, the innermost first. A backend
may ask the monitor again from within a call, so there may be several. -/
structure Place where
  inFlight : List Pending := []
  lock : Lock := .free

variable {β σ α γ : Type}

def Place.Fits (pl : Place) (w : Shared β σ) : Prop :=
  match pl.lock with
  | .free => True
  | .held => w.detecting = true
  | .first => w.detecting = true ∧ w.monitor.inventory.initialized = false

inductive Moves (w w' : Shared β σ) : Place → Place → Prop
  | looks (pl : Place) (hm : w'.monitor = w.monitor) (hd : w'.detecting = w.detecting) :
    Moves w w' pl pl
  | opens (pl : Place) (q : Query) (now : Instant) (hm : w'.monitor = (q.opening now w.monitor).2)
    (hd : w'.detecting = w.detecting) : Moves w w' pl
      { pl with inFlight := (q.opening now w.monitor).1.pending?.toList ++ pl.inFlight }
  | publishes (p : Pending) (ps : List Pending) (lock : Lock) (fresh : Reading) (now : Instant)
    (hm : w'.monitor = (publish p fresh now w.monitor).2) (hd : w'.detecting = w.detecting) :
    Moves w w' ⟨p :: ps, lock⟩ ⟨ps, lock⟩
  | fails (p : Pending) (ps : List Pending) (lock : Lock) (hm : w'.monitor = w.monitor)
    (hd : w'.detecting = w.detecting) : Moves w w' ⟨p :: ps, lock⟩ ⟨ps, lock⟩
  | locks (ps : List Pending) (hfree : w.detecting = false) (hm : w'.monitor = w.monitor)
    (hd : w'.detecting = true) : Moves w w' ⟨ps, .free⟩ ⟨ps, .held⟩
  | checks (ps : List Pending) (hi : w.monitor.inventory.initialized = false)
    (hm : w'.monitor = w.monitor) (hd : w'.detecting = w.detecting) :
    Moves w w' ⟨ps, .held⟩ ⟨ps, .first⟩
  | installs (ps : List Pending) (found : List Reading) (hm : w'.monitor = install found w.monitor)
    (hd : w'.detecting = w.detecting) : Moves w w' ⟨ps, .first⟩ ⟨ps, .held⟩
  | reinstalls (ps : List Pending) (found : List Reading)
    (hm : w'.monitor = reinstall found w.monitor) (hd : w'.detecting = w.detecting) :
    Moves w w' ⟨ps, .held⟩ ⟨ps, .held⟩
  | unlocks (ps : List Pending) (hm : w'.monitor = w.monitor) (hd : w'.detecting = false) :
    Moves w w' ⟨ps, .held⟩ ⟨ps, .free⟩
  | selects (pl : Place) (i : UInt64) (hm : w'.monitor = (selectPrimary i w.monitor).2)
    (hd : w'.detecting = w.detecting) : Moves w w' pl pl
  | stores (pl : Place) (i : UInt64) (fresh : Reading) (hm : w'.monitor = storeSame i fresh w.monitor)
    (hd : w'.detecting = w.detecting) : Moves w w' pl pl
  | empties (pl : Place) (hm : w'.monitor = clearCache w.monitor)
    (hd : w'.detecting = w.detecting) : Moves w w' pl pl

/-- From a place, every step of the job is a move, and `Q` holds of its result and of the place it ends
in. What a step may rely on is the place, since other jobs run in between. -/
def Obeys : Job (Shared β σ) α → Place → (α → Place → Prop) → Prop
  | .done a, pl, Q => Q a pl
  | .step ready update next, pl, Q => ∀ w, pl.Fits w → ready w = true →
    ∃ pl', Moves w (update w) pl pl' ∧ Obeys (next w) pl' Q

def Keeps (job : Job (Shared β σ) α) : Prop := ∀ pl, Obeys job pl fun _ pl' => pl' = pl

section Rules

variable {pl : Place} {Q : α → Place → Prop}

theorem Obeys.mono {job : Job (Shared β σ) α} {P : α → Place → Prop} (h : Obeys job pl P)
    (hPQ : ∀ a pl', P a pl' → Q a pl') : Obeys job pl Q := by
  induction job generalizing pl with
  | done a => exact hPQ a pl h
  | step ready update next ih =>
    intro w hfits hready
    obtain ⟨pl', hmove, hnext⟩ := h w hfits hready
    exact ⟨pl', hmove, ih w hnext⟩

theorem obeys_bind {job : Job (Shared β σ) γ} {f : γ → Job (Shared β σ) α}
    (h : Obeys job pl fun b pl' => Obeys (f b) pl' Q) : Obeys (job >>= f) pl Q := by
  induction job generalizing pl with
  | done b => exact h
  | step ready update next ih =>
    intro w hfits hready
    obtain ⟨pl', hmove, hnext⟩ := h w hfits hready
    exact ⟨pl', hmove, ih w hnext⟩

theorem obeys_pure {a : α} (h : Q a pl) : Obeys (pure a : Job (Shared β σ) α) pl Q := h

theorem obeys_get {Q : Monitor β → Place → Prop}
    (h : ∀ w : Shared β σ, pl.Fits w → ∃ pl', Moves w w pl pl' ∧ Q w.monitor pl') :
    Obeys (get : Job (Shared β σ) (Monitor β)) pl Q := fun w hfits _ => h w hfits

theorem obeys_modifyGet {f : Monitor β → α × Monitor β}
    (h : ∀ w : Shared β σ, pl.Fits w →
      ∃ pl', Moves w { w with monitor := (f w.monitor).2 } pl pl' ∧ Q (f w.monitor).1 pl') :
    Obeys (modifyGet f : Job (Shared β σ) α) pl Q := fun w hfits _ => h w hfits

theorem keeps_pure (a : α) : Keeps (pure a : Job (Shared β σ) α) := fun _ => rfl

theorem keeps_bind {job : Job (Shared β σ) γ} {f : γ → Job (Shared β σ) α} (h : Keeps job)
    (hf : ∀ b, Keeps (f b)) : Keeps (job >>= f) := by
  intro pl
  refine obeys_bind ((h pl).mono ?_)
  intro b pl' hpl
  obtain rfl := hpl
  exact hf b _

theorem keeps_get : Keeps (get : Job (Shared β σ) (Monitor β)) :=
  fun pl => obeys_get fun _ _ => ⟨pl, .looks pl rfl rfl, rfl⟩

theorem keeps_outside (f : σ → α × σ) : Keeps (Shared.onOutside f : Job (Shared β σ) α) :=
  fun pl _ _ _ => ⟨pl, .looks pl rfl rfl, rfl⟩

end Rules

/-! ### The operations -/

section Operations

variable [BackendCalls β (Job (Shared β σ))] [Surroundings σ]

variable (β σ) in
/-- Backends keep to their surroundings, or ask the monitor again by its operations. -/
structure Behaved : Prop where
  name : ∀ b : β, Keeps (BackendCalls.name b : Job (Shared β σ) Text)
  detect : ∀ b : β, Keeps (BackendCalls.detect b [] : Job (Shared β σ) Detection)
  refresh : ∀ (b : β) (r : Reading), Keeps (BackendCalls.refresh b r : Job (Shared β σ) Attempt)

variable (hb : Behaved β σ)

include hb

theorem admits_keeps : Admits fun α (job : Job (Shared β σ) α) => Keeps job where
  pure := keeps_pure
  bind := keeps_bind
  report _ := keeps_outside _
  name := hb.name
  detect := hb.detect
  refresh := hb.refresh
  get := keeps_get

omit hb [BackendCalls β (Job (Shared β σ))] in
/-- A job that waits for the detection lock gets it only where it does not have it. -/
theorem keeps_exclusively {job : Job (Shared β σ) α}
    (h : ∀ ps, Obeys job ⟨ps, .held⟩ fun _ pl => pl = ⟨ps, .held⟩) :
    Keeps (Host.exclusively job) := by
  intro pl
  obtain ⟨ps, lock⟩ := pl
  -- who holds the lock already would wait for itself
  have henter : Obeys (Shared.enterDetection : Job (Shared β σ) Unit) ⟨ps, lock⟩
      fun _ pl => lock = .free ∧ pl = ⟨ps, .held⟩ := by
    intro w hfits hready
    have hfree : w.detecting = false := by simpa using hready
    cases lock with
    | free => exact ⟨⟨ps, .held⟩, .locks ps hfree rfl rfl, rfl, rfl⟩
    | held => exact absurd (hfree.symm.trans hfits) Bool.false_ne_true
    | first => exact absurd (hfree.symm.trans hfits.1) Bool.false_ne_true
  refine obeys_bind (henter.mono ?_)
  intro u pl' hpl
  obtain ⟨rfl, rfl⟩ := hpl
  refine obeys_bind ((h ps).mono ?_)
  intro a pl' hpl
  obtain rfl := hpl
  refine obeys_bind fun w _ _ => ?_
  exact ⟨⟨ps, .free⟩, .unlocks ps rfl rfl, rfl⟩

/-- Who makes sure of a detection takes the lock, looks again, and gives the lock back. -/
theorem keeps_ensureDetected : Keeps (ensureDetected : Job (Shared β σ) Unit) := by
  refine keeps_bind (keeps_bind keeps_get fun _ => keeps_pure _) fun initialized => ?_
  split
  · refine keeps_exclusively fun ps => ?_
    -- the look under the lock tells whether this is the first detection
    refine obeys_bind (obeys_bind (obeys_get fun w _ => ?_))
    cases hi : w.monitor.inventory.initialized with
    | true =>
      exact ⟨⟨ps, .held⟩, .looks _ rfl rfl, obeys_pure (obeys_pure rfl)⟩
    | false =>
      refine ⟨⟨ps, .first⟩, .checks ps hi rfl rfl, obeys_pure ?_⟩
      refine obeys_bind (((admits_keeps hb).runDetection _).mono ?_)
      intro found pl' hpl
      obtain rfl := hpl
      exact fun w _ _ => ⟨⟨ps, .held⟩, .installs ps found rfl rfl, rfl⟩
  · exact keeps_pure _

theorem keeps_detectAll : Keeps (detectAll : Job (Shared β σ) ℕ) := by
  refine keeps_exclusively fun ps => obeys_bind (((admits_keeps hb).runDetection _).mono ?_)
  intro found pl' hpl
  obtain rfl := hpl
  exact obeys_modifyGet fun w _ => ⟨⟨ps, .held⟩, .reinstalls ps found rfl rfl, rfl⟩

/-- The second half of a query takes it off what is in flight. -/
theorem obeys_close (o : Opening) (pl : Place) :
    Obeys (close o : Job (Shared β σ) Answer)
      { pl with inFlight := o.pending?.toList ++ pl.inFlight } fun _ pl' => pl' = pl := by
  cases o with
  | answered a => exact obeys_pure rfl
  | pending p =>
    refine obeys_bind (((admits_keeps hb).refreshReading p.slot.reading _).mono ?_)
    intro x pl' hpl
    obtain ⟨status, fresh⟩ := x
    obtain rfl := hpl
    dsimp only
    split
    · refine obeys_bind ((keeps_outside _ _).mono ?_)
      intro now pl' hpl
      obtain rfl := hpl
      exact obeys_modifyGet fun w _ =>
        ⟨pl, .publishes p pl.inFlight pl.lock fresh now rfl rfl, rfl⟩
    · exact obeys_bind fun w _ _ => ⟨pl, .fails p pl.inFlight pl.lock rfl rfl, rfl⟩

/-- A query that comes into flight leaves it again. -/
theorem keeps_query (q : Query) (now : Instant) :
    Keeps (modifyGet (q.opening now) >>= close : Job (Shared β σ) Answer) :=
  fun pl => obeys_bind (obeys_modifyGet fun _ _ =>
    ⟨_, .opens pl q now rfl rfl, obeys_close hb _ pl⟩)

theorem keeps_refreshAll : Keeps (refreshAll : Job (Shared β σ) Status) := by
  have hstore (i : UInt64) (fresh : Reading) :
      Keeps (modify (storeSame i fresh) : Job (Shared β σ) PUnit) :=
    fun pl => obeys_modifyGet fun _ _ => ⟨pl, .stores pl i fresh rfl rfl, rfl⟩
  have hclear : Keeps (modify clearCache : Job (Shared β σ) PUnit) :=
    fun pl => obeys_modifyGet fun _ _ => ⟨pl, .empties pl rfl rfl, rfl⟩
  exact keeps_bind (keeps_ensureDetected hb) fun _ => (admits_keeps hb).refreshEach hstore hclear

theorem keeps_setPrimary (i : UInt64) : Keeps (setPrimary i : Job (Shared β σ) Status) := by
  have hselect : Keeps (modifyGet (selectPrimary i) : Job (Shared β σ) Status) :=
    fun pl => obeys_modifyGet fun w _ => ⟨pl, .selects pl i rfl rfl, rfl⟩
  exact keeps_bind (keeps_ensureDetected hb) fun _ => (admits_keeps hb).select hselect

/-- Every step of an operation is a move. -/
theorem keeps_perform (c : Call) : Keeps (c.perform : Job (Shared β σ) Reply) := by
  have hready := keeps_ensureDetected hb
  have hmap {δ : Type} {job : Job (Shared β σ) δ} (f : δ → Reply) (h : Keeps job) :
      Keeps (f <$> job) := keeps_bind h fun _ => keeps_pure _
  cases c with
  | cached i =>
    exact hmap _ (keeps_bind hready fun _ => keeps_bind (keeps_outside _) fun now =>
      keeps_query hb (.cached i) now)
  | cachedPrimary =>
    exact hmap _ (keeps_bind hready fun _ => keeps_bind (keeps_outside _) fun now =>
      keeps_query hb .cachedPrimary now)
  | refresh i => exact hmap _ (keeps_bind hready fun _ => keeps_query hb (.refresh i) 0)
  | refreshPrimary => exact hmap _ (keeps_bind hready fun _ => keeps_query hb .refreshPrimary 0)
  | refreshAll => exact hmap _ (keeps_refreshAll hb)
  | setPrimary i => exact hmap _ (keeps_setPrimary hb i)
  | detectAll => exact hmap _ (keeps_detectAll hb)
  | device i =>
    exact hmap _ (keeps_bind hready fun _ => keeps_bind keeps_get fun _ => keeps_pure _)
  | devices =>
    exact hmap _ (keeps_bind hready fun _ => keeps_bind keeps_get fun _ => keeps_pure _)

/-- A sequence of operations gives back the lock and every query in flight. -/
theorem keeps_performAll (calls : List Call) :
    Keeps (performAll calls : Job (Shared β σ) (List Reply)) := by
  induction calls with
  | nil => exact keeps_pure []
  | cons c cs ih =>
    exact keeps_bind (keeps_perform hb c) fun _ => keeps_bind ih fun _ => keeps_pure _

end Operations

/-- Backends that do nothing but change their surroundings behave. -/
theorem behaved_of_outside [BackendCalls β (StateM σ)] : Behaved β σ :=
  ⟨fun _ => keeps_outside _, fun _ => keeps_outside _, fun _ _ => keeps_outside _⟩

section Moves

variable {w w' : Shared β σ} {pl pl' other : Place}

theorem Place.fits_of_free (h : pl.lock = .free) : pl.Fits w := by
  unfold Place.Fits
  rw [h]
  trivial

theorem Place.Fits.detecting (h : pl.Fits w) (hlock : pl.lock ≠ .free) : w.detecting = true := by
  unfold Place.Fits at h
  cases hl : pl.lock with
  | free => exact absurd hl hlock
  | held => simpa [hl] using h
  | first => exact (by simpa [hl] using h : _ ∧ _).1

theorem Place.Fits.of_still (h : pl.Fits w) (hlock : pl'.lock = pl.lock)
    (hd : w'.detecting = w.detecting) (hi : pl.lock = .first →
      w'.monitor.inventory.initialized = w.monitor.inventory.initialized) : pl'.Fits w' := by
  unfold Place.Fits at h ⊢
  rw [hlock]
  cases hl : pl.lock with
  | free => trivial
  | held => simpa [hl, hd] using h
  | first => simpa [hl, hd, hi hl] using h

/-- Steps that are no part of a detection leave it alone. -/
theorem Moves.still (h : Moves w w' pl pl') (hlock : pl'.lock = pl.lock) :
    w'.detecting = w.detecting ∧ (pl.lock ≠ .held →
      w'.monitor.inventory.initialized = w.monitor.inventory.initialized) := by
  cases h with
  | looks _ hm hd => exact ⟨hd, fun _ => by rw [hm]⟩
  | opens _ q now hm hd => exact ⟨hd, fun _ => by rw [hm, inventory_opening]⟩
  | publishes p _ _ fresh now hm hd =>
    refine ⟨hd, fun _ => ?_⟩
    rw [hm]
    -- publishing and storing write into slots, which does not count as a detection
    rcases publish_cases p fresh now w.monitor with ⟨_, hp⟩ | hp
    · rw [hp]
      rfl
    · rw [hp]
  | fails _ _ _ hm hd => exact ⟨hd, fun _ => by rw [hm]⟩
  | selects _ i hm hd =>
    refine ⟨hd, fun _ => ?_⟩
    rw [hm]
    rcases selectPrimary_cases i w.monitor with ⟨_, hs⟩ | hs <;> rw [hs]
  | stores _ i fresh hm hd =>
    refine ⟨hd, fun _ => ?_⟩
    rw [hm, storeSame]
    rcases w.monitor.inventory.updateSame_cases i fresh with ⟨_, _, _, hu⟩ | hu
    · rw [hu]
      rfl
    · rw [hu]
  | empties _ hm hd => exact ⟨hd, fun _ => by rw [hm]; rfl⟩
  | reinstalls _ _ hm hd => exact ⟨hd, fun hno => absurd rfl hno⟩
  | locks | checks | installs | unlocks => cases hlock

/-- A move leads to a place that fits. -/
theorem Moves.fits (h : Moves w w' pl pl') (hfits : pl.Fits w) : pl'.Fits w' := by
  by_cases hlock : pl'.lock = pl.lock
  · obtain ⟨hd, hi⟩ := h.still hlock
    exact hfits.of_still hlock hd fun hl => hi (by simp [hl])
  · cases h with
    | looks | opens | publishes | fails | selects | stores | empties | reinstalls =>
      exact absurd rfl hlock
    | locks ps _ _ hd => exact hd
    | checks ps hi hm hd => exact ⟨hd.trans hfits, by rw [hm, hi]⟩
    | installs ps found _ hd => exact hd.trans hfits.1
    | unlocks => trivial

/-- The lock is taken only when nobody holds it. -/
theorem Moves.lock_of_free (h : Moves w w' pl pl') (hlock : pl.lock = .free)
    (hheld : w.detecting = true) : pl'.lock = .free := by
  cases h with
  | looks | opens | publishes | fails | selects | stores | empties => exact hlock
  | locks _ hfree => rw [hfree] at hheld; cases hheld
  | checks | installs | reinstalls | unlocks => cases hlock

/-- What another job relies on still holds after a step. -/
theorem Moves.fits_other (h : Moves w w' pl pl') (hfits : other.Fits w)
    (halone : other.lock ≠ .free → pl.lock = .free) : other.Fits w' := by
  by_cases hother : other.lock = .free
  · exact Place.fits_of_free hother
  · have hfree := halone hother
    have hfree' := h.lock_of_free hfree (hfits.detecting hother)
    obtain ⟨hd, hi⟩ := h.still (hfree'.trans hfree.symm)
    exact hfits.of_still rfl hd fun _ => hi (by simp [hfree])

end Moves

end GpuTelemetry.Monitor
