import GpuTelemetry.Job.Crew
import GpuTelemetry.Monitor.Operations
import GpuTelemetry.Monitor.Shared
import GpuTelemetry.Proofs.Monitor.Publication
/-!
What stands in the slots of a collection. From one detection to the next a slot is written by two kinds
of events only: a query publishes that has not been overtaken, or refreshing all devices stores a
reading over one of the same device.
-/

namespace GpuTelemetry.Monitor

open Traffic (after)

variable {β : Type} {reg : Registry β} {policy : Cache.Policy} {es later : List Event} {ev : Event}
  {s s' s₀ : Traffic β} {id : ℕ} {p : Pending} {i : UInt64} {r : Reading}

inductive Writes (s : Traffic β) (i : UInt64) (r : Reading) : Event → Prop
  | publishes (id : ℕ) (now : Instant) (p : Pending) (hp : s.inFlight id = some p)
    (hi : p.slot.index = i) (hg : p.slot.generation = s.monitor.inventory.generation) :
    Writes s i r (.publishes id r now)
  | stores (old : Reading) (hold : s.monitor.inventory.get? i = some old)
    (hsame : old.same r = true) : Writes s i r (.stores i r)

/-- What a slot holds after an event it held before, or the event has written it, or it is of a
collection that has just been found. -/
theorem get?_of_step (hs : s.step ev = some s') (hr : s'.monitor.inventory.get? i = some r) :
    (s.monitor.inventory.get? i = some r ∧ ev.replaces = false) ∨ Writes s i r ev ∨
    ∃ found, ev = .finds found ∧ found[i.toNat]? = some r := by
  cases stepped hs with
  | opens q now => exact Or.inl ⟨by simpa only [inventory_opening] using hr, rfl⟩
  | @publishes id p fresh now hp hcurrent hlt =>
    rcases Inventory.get?_of_set hr with ⟨hi, rfl⟩ | hold
    · exact Or.inr (Or.inl (.publishes id now p hp hi.symm hcurrent))
    · exact Or.inl ⟨hold, rfl⟩
  -- another primary device, but the same devices
  | drops | fails | detects | selects | declines | keeps | empties => exact Or.inl ⟨hr, rfl⟩
  | installs found | reinstalls found => exact Or.inr (Or.inr ⟨found, rfl, hr⟩)
  | stores j fresh hold hsame =>
    -- refreshing all devices looks at identities only, whichever collection they are of
    rcases Inventory.get?_of_set hr with ⟨rfl, rfl⟩ | hr
    · exact Or.inr (Or.inl (.stores _ hold hsame))
    · exact Or.inl ⟨hr, rfl⟩

def WrittenSince (reg : Registry β) (policy : Cache.Policy) (es later : List Event) (i : UInt64)
    (r : Reading) : Prop :=
  ∃ before ev rest s, later = before ++ ev :: rest ∧ after reg policy (es ++ before) = some s ∧
    Writes s i r ev

theorem WrittenSince.snoc (h : WrittenSince reg policy es later i r) :
    WrittenSince reg policy es (later ++ [ev]) i r := by
  obtain ⟨before, ev', rest, s, rfl, hs⟩ := h
  exact ⟨before, ev', rest ++ [ev], s, by simp, hs⟩

/-- While the collection is not replaced, a slot holds what it held or what was written since. -/
theorem get?_since (hquiet : ∀ ev ∈ later, ev.replaces = false) (h₀ : after reg policy es = some s₀)
    (h : after reg policy (es ++ later) = some s) (hr : s.monitor.inventory.get? i = some r) :
    s₀.monitor.inventory.get? i = some r ∨ WrittenSince reg policy es later i r := by
  refine since_induction (P := fun later s => (∀ ev ∈ later, ev.replaces = false) →
    s.monitor.inventory.get? i = some r → s₀.monitor.inventory.get? i = some r ∨
      WrittenSince reg policy es later i r) h₀ (fun _ => Or.inl) ?_ h hquiet hr
  intro later ev s₁ s₂ h₁ ih hs hquiet hr
  obtain ⟨hquiet, hev⟩ := List.forall_mem_append.1 hquiet
  rcases get?_of_step hs hr with ⟨hold, _⟩ | hwrites | ⟨found, rfl, _⟩
  · exact (ih hquiet hold).imp_right WrittenSince.snoc
  · exact Or.inr ⟨later, ev, [], s₁, rfl, h₁, hwrites⟩
  · exact absurd (hev _ (List.mem_singleton_self _)) (by simp [Event.replaces])

/-! ### Queries and their numbers -/

theorem next_le_of_step (hs : s.step ev = some s') : s.next ≤ s'.next := by
  cases stepped hs with
  | opens q now => exact Nat.le_succ _
  | _ => exact Nat.le_refl _

theorem next_le_of_after (h₀ : after reg policy es = some s₀)
    (h : after reg policy (es ++ later) = some s) : s₀.next ≤ s.next :=
  since_induction (P := fun _ s => s₀.next ≤ s.next) h₀ (Nat.le_refl _)
    (fun _ _ _ _ _ hle hs => Nat.le_trans hle (next_le_of_step hs)) h

/-- A query in flight was in flight before, or it has been opened since. -/
theorem inFlight_since (h₀ : after reg policy es = some s₀)
    (h : after reg policy (es ++ later) = some s) (hp : s.inFlight id = some p) :
    s₀.inFlight id = some p ∨ s₀.next ≤ id := by
  refine since_induction (P := fun _ s => s.inFlight id = some p →
    s₀.inFlight id = some p ∨ s₀.next ≤ id) h₀ Or.inl ?_ h hp
  intro later ev s₁ s₂ h₁ ih hs hp
  rcases inFlight_of_step hs hp with hold | ⟨q, now, _, rfl, _⟩
  · exact ih hold
  · exact Or.inr (next_le_of_after h₀ h₁)

/-! ### Detections and the queries they overtake -/

def PublishedSince (reg : Registry β) (policy : Cache.Policy) (es later : List Event) (i : UInt64)
    (id : ℕ) (r : Reading) : Prop :=
  ∃ before t rest s p, later = before ++ .publishes id r t :: rest ∧
    after reg policy (es ++ before) = some s ∧ s.inFlight id = some p ∧ p.slot.index = i

/-- In the course of the events `later`, which follow `es`, refreshing all devices stores `r` over a
reading of the same device in slot `i`. -/
def RestoredSince (reg : Registry β) (policy : Cache.Policy) (es later : List Event) (i : UInt64)
    (r : Reading) : Prop :=
  ∃ before rest s old, later = before ++ .stores i r :: rest ∧
    after reg policy (es ++ before) = some s ∧ s.monitor.inventory.get? i = some old ∧
    old.same r = true

variable {found : List Reading}

/-- A query in flight whose generation is the current one was opened after the last detection. -/
theorem next_le_of_current (h₀ : after reg policy (es ++ [.finds found]) = some s₀)
    (h : after reg policy (es ++ [.finds found] ++ later) = some s) (hp : s.inFlight id = some p)
    (htimely : Timely reg policy (es ++ [.finds found] ++ later))
    (hgen : p.slot.generation = s.monitor.inventory.generation) : s₀.next ≤ id := by
  refine (inFlight_since h₀ h hp).resolve_left fun hold => ?_
  -- had it been in flight at the detection, then that would have overtaken it
  obtain ⟨s₁, h₁, hs⟩ := after_snoc_eq_some h₀
  rcases inFlight_of_step hs hold with hp₁ | ⟨q, now, heq, _⟩
  · obtain ⟨since, hopen⟩ := opened_of_inFlight h₁ hp₁
    have hlong := (hopen.append [.finds found]).append later
    have hfew := htimely _ [] s id p _ (List.append_nil _).symm h hp hlong
    exact (hlong.stale_iff h hfew).2 ⟨.finds found, by simp, rfl⟩ hgen
  · cases heq

/-- **What detection found is overwritten by later queries only, or by the same device.** What a slot
holds after a detection is what was found, or was published by a query opened after it, or refreshing all
devices has stored it over a reading of the same device. A query of one device that was in flight at the
detection writes nothing into the new collection. -/
theorem slot_since_detection (htimely : Timely reg policy (es ++ [.finds found] ++ later))
    (hquiet : ∀ ev ∈ later, ev.replaces = false)
    (h₀ : after reg policy (es ++ [.finds found]) = some s₀)
    (h : after reg policy (es ++ [.finds found] ++ later) = some s)
    (hr : s.monitor.inventory.get? i = some r) :
    found[i.toNat]? = some r ∨
    (∃ id, s₀.next ≤ id ∧ PublishedSince reg policy (es ++ [.finds found]) later i id r) ∨
    RestoredSince reg policy (es ++ [.finds found]) later i r := by
  rcases get?_since hquiet h₀ h hr with hold | ⟨before, ev, rest, s₁, rfl, h₁, hwrites⟩
  -- not written since, so it is what the detection has put there
  · obtain ⟨s₂, _, hs⟩ := after_snoc_eq_some h₀
    rcases get?_of_step hs hold with ⟨_, hev⟩ | hwrites | ⟨found', heq, hfound⟩
    · cases hev
    · cases hwrites
    · cases heq
      exact Or.inl hfound
  · cases hwrites with
    | publishes id now p hp hi hg =>
      rw [← List.append_assoc] at htimely
      have hnext := next_le_of_current h₀ h₁ hp htimely.of_append hg
      exact Or.inr (Or.inl ⟨id, hnext, before, now, rest, s₁, p, rfl, h₁, hp, hi⟩)
    | stores old hold hsame => exact Or.inr (Or.inr ⟨before, rest, s₁, old, rfl, h₁, hold, hsame⟩)

def detectedMeanwhile : List Event :=
  [.detects true, .finds [{}], .opens (.refresh 0) 1, .detects false]

def refreshedTwice : List Event :=
  [.publishes 0 { active := some false } 2, .opens (.refresh 0) 3,
    .publishes 1 { active := some true } 4]

/-- A refresh publishes too late for a detection, and another one does not. -/
theorem slot_since_detection_of_refreshed : ∃ s₀ s,
    after ({} : Registry Unit) {} (detectedMeanwhile ++ [.finds [{}]]) = some s₀ ∧
    after ({} : Registry Unit) {} (detectedMeanwhile ++ [.finds [{}]] ++ refreshedTwice) = some s ∧
    s.monitor.inventory.get? 0 = some { active := some true } ∧
    (([{}] : List Reading)[(0 : UInt64).toNat]? = some { active := some true } ∨
      (∃ id, s₀.next ≤ id ∧ PublishedSince ({} : Registry Unit) {} (detectedMeanwhile ++ [.finds [{}]])
        refreshedTwice 0 id { active := some true }) ∨
      RestoredSince ({} : Registry Unit) {} (detectedMeanwhile ++ [.finds [{}]]) refreshedTwice 0
        { active := some true }) := by
  refine ⟨_, _, rfl, rfl, rfl, ?_⟩
  exact slot_since_detection (timely_of_few_turns (by decide)) (by simp [refreshedTwice, Event.replaces])
    rfl rfl rfl

/-! ### Refreshing all devices beside a detection -/

/-- A device that runs one megahertz faster with every look at it; the surroundings count the looks. -/
structure Ramp where

instance : Surroundings UInt32 where
  now n := (0, n)
  report _ n := n

instance : BackendCalls Ramp (Job (Shared Ramp UInt32)) where
  name _ := pure []
  detect _ listed := do
    let n ← Shared.onOutside fun n => (n, n + 1)
    pure ((Detection.ofReadings [{ coreClockMHz := some n }]).onto listed)
  refresh _ r := do
    let n ← Shared.onOutside fun n => (n, n + 1)
    Shared.onOutside fun n => ((), n)
    pure ⟨{ r with coreClockMHz := some n }, .returned .ok⟩

def refreshAndDetect : Crew (Shared Ramp UInt32) Unit :=
  let c := Crew.new 2 { monitor := new { entries := [⟨{}, {}⟩] } {}, outside := 0 }
  let c := (c.submit (discard refreshAll)).2
  (c.submit (discard detectAll)).2

/-- The refresh has looked at the device and not come back, and the detection is done. -/
def betweenLookAndAnswer : Crew (Shared Ramp UInt32) Unit :=
  refreshAndDetect.moves (List.replicate 12 0 ++ List.replicate 7 1)

def Crew.clocks (c : Crew (Shared Ramp UInt32) Unit) : List (Option UInt32) :=
  c.shared.monitor.inventory.devices.map (·.coreClockMHz)

/-- Refreshing all devices compares identities and not generations, so what it looked at before a
detection replaces what the detection found of the same device. -/
theorem refreshAll_undoes_detection :
    betweenLookAndAnswer.result? 1 = some () ∧ Crew.clocks betweenLookAndAnswer = [some 2] ∧
      Crew.clocks (betweenLookAndAnswer.moves [0, 0]) = [some 1] := by
  decide

end GpuTelemetry.Monitor
