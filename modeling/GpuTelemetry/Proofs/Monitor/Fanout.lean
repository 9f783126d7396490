import GpuTelemetry.Proofs.Job.Protocol
import GpuTelemetry.Proofs.Monitor.Marks
import GpuTelemetry.Proofs.Monitor.Renewal

namespace GpuTelemetry.Monitor

open Job (Abides abides_pure abides_bind abides_atomic)
open Shared (Yields)

variable {β σ α : Type}

/-! ### The protocol -/

inductive Turn where
  | starts
  /-- Under the detection lock. -/
  | locked
  /-- Under the lock, and nothing is stored. -/
  | missing
  /-- Under the lock, and a detection is stored. -/
  | stored
  | ready
  | answered
deriving DecidableEq

def Turn.Locked (t : Turn) : Prop := t = .locked ∨ t = .missing ∨ t = .stored

def Turn.Fits (initialized : Bool) : Turn → Prop
  | .starts | .locked => True
  | .missing => initialized = false
  | .stored | .ready | .answered => initialized = true

def Answered (is : List UInt64) (turns : ℕ → Turn) (i : UInt64) : Prop :=
  ∃ id, is[id]? = some i ∧ turns id = .answered

/-- The collection `base`, in which the devices of some slots have been read again. -/
structure RenewedAt (f : Reading → Status × Reading) (base : Inventory) (again : UInt64 → Prop)
    (inv : Inventory) : Prop where
  frame : inv = { base with devices := inv.devices }
  length : inv.devices.length = base.devices.length
  changed : ∀ i d, again i → base.get? i = some d → inv.get? i = some (renewed f d)
  unchanged : ∀ i, ¬ again i → inv.get? i = base.get? i

/-- The state while one query for each of the devices `is` runs, `holder` being the one under the
detection lock. -/
structure Fanned (reg : Registry β) (found : List Reading) (f : Reading → Status × Reading)
    (start : Inventory) (is : List UInt64) (holder : Option ℕ) (turns : ℕ → Turn)
    (w : Shared β σ) : Prop where
  registry : w.monitor.registry = reg
  detecting : w.detecting = holder.isSome
  lock : ∀ id, (turns id).Locked ↔ holder = some id
  fits : ∀ id, (turns id).Fits w.monitor.inventory.initialized
  blank : w.monitor.inventory.initialized = false → w.monitor.inventory = start
  collection : w.monitor.inventory.initialized = true →
    RenewedAt f (detected found start) (Answered is turns) w.monitor.inventory
  cached : ∀ k e, w.monitor.cache.item? k = some e → ∃ i, k = .device i ∧ Answered is turns i

def fanout (reg : Registry β) (found : List Reading) (f : Reading → Status × Reading)
    (start : Inventory) (is : List UInt64) : Protocol (Shared β σ) Turn where
  Holds turns w := ∃ holder, Fanned reg found f start is holder turns w
  Waits t w := t = .starts ∧ w.detecting = true

def answerAt (f : Reading → Status × Reading) (base : Inventory) (i : UInt64) : Answer :=
  match base.get? i with
  | none => .notFound
  | some d => renewedAnswer f d

variable {reg : Registry β} {found : List Reading} {f : Reading → Status × Reading}
  {start base inv inv' : Inventory} {is : List UInt64} {holder : Option ℕ} {turns : ℕ → Turn}
  {w w' : Shared β σ} {id : ℕ} {i : UInt64} {t : Turn} {d : Reading} {again again' : UInt64 → Prop}

/-! ### The collection -/

theorem renewedAt_self (h : ∀ i, ¬ again i) : RenewedAt f base again base :=
  ⟨rfl, rfl, fun i _ hi => absurd hi (h i), fun _ _ => rfl⟩

theorem RenewedAt.congr (h : RenewedAt f base again inv) (hsame : ∀ i, again' i ↔ again i) :
    RenewedAt f base again' inv :=
  ⟨h.frame, h.length, fun i d hi => h.changed i d ((hsame i).1 hi),
    fun i hi => h.unchanged i (mt (hsame i).2 hi)⟩

/-- One more slot is read again. -/
theorem RenewedAt.set (h : RenewedAt f base again inv) (hd : base.get? i = some d)
    (hi : ¬ again i) (hsame : ∀ j, again' j ↔ again j ∨ j = i) :
    RenewedAt f base again' (inv.set i (renewed f d)) := by
  have hget : inv.get? i = some d := (h.unchanged i hi).trans hd
  refine ⟨?_, ?_, fun j e hj he => ?_, fun j hj => ?_⟩
  · rw [h.frame]
    rfl
  · rw [Inventory.set, List.length_set, h.length]
  · by_cases hji : j = i
    · obtain rfl := hji
      rw [Inventory.get?_set_self hget]
      rw [hd] at he
      rw [Option.some.inj he]
    · rw [Inventory.get?_set_of_ne hji]
      exact h.changed j e (((hsame j).1 hj).resolve_right hji) he
  · rw [hsame, not_or] at hj
    rw [Inventory.get?_set_of_ne hj.2]
    exact h.unchanged j hj.1

/-- One more slot is read again, which leaves it as it is. -/
theorem RenewedAt.skip (h : RenewedAt f base again inv)
    (hd : ∀ d, base.get? i = some d → renewed f d = d) (hi : ¬ again i)
    (hsame : ∀ j, again' j ↔ again j ∨ j = i) : RenewedAt f base again' inv := by
  refine ⟨h.frame, h.length, fun j e hj he => ?_, fun j hj => ?_⟩
  · by_cases hji : j = i
    · obtain rfl := hji
      rw [h.unchanged j hi, hd e he, he]
    · exact h.changed j e (((hsame j).1 hj).resolve_right hji) he
  · rw [hsame, not_or] at hj
    exact h.unchanged j hj.1

/-- What has been read again tells what the collection is. -/
theorem RenewedAt.unique (h : RenewedAt f base again inv) (h' : RenewedAt f base again inv')
    (hsize : base.size < UInt64.size) : inv = inv' := by
  have hget (i : UInt64) : inv.get? i = inv'.get? i := by
    by_cases hi : again i
    · cases hd : base.get? i with
      | some d => rw [h.changed i d hi hd, h'.changed i d hi hd]
      | none =>
        have hle : base.devices.length ≤ i.toNat := List.getElem?_eq_none_iff.1 hd
        rw [Inventory.get?, Inventory.get?, List.getElem?_eq_none (h.length ▸ hle),
          List.getElem?_eq_none (h'.length ▸ hle)]
    · rw [h.unchanged i hi, h'.unchanged i hi]
  have hdev : inv.devices = inv'.devices := by
    refine List.ext_getElem? fun n => ?_
    by_cases hn : n < base.size
    · have hword := hget n.toUInt64
      rwa [Inventory.get?, Inventory.get?, toNat_of_lt (Nat.lt_trans hn hsize)] at hword
    · have hle : base.devices.length ≤ n := Nat.le_of_not_lt hn
      rw [List.getElem?_eq_none (h.length ▸ hle), List.getElem?_eq_none (h'.length ▸ hle)]
  rw [h.frame, h'.frame, hdev]

/-! ### Steps -/

/-- A query that has not been answered and is not answered now does not count. -/
theorem answered_update (hbefore : turns id ≠ .answered) (hafter : t ≠ .answered) (i : UInt64) :
    Answered is (Function.update turns id t) i ↔ Answered is turns i := by
  refine exists_congr fun j => and_congr_right fun _ => ?_
  by_cases hj : j = id
  · rw [hj, Function.update_self]
    exact iff_of_false hafter hbefore
  · rw [Function.update_of_ne hj]

theorem answered_update_self (hid : is[id]? = some i) (j : UInt64) :
    Answered is (Function.update turns id .answered) j ↔ Answered is turns j ∨ j = i := by
  constructor
  · rintro ⟨id', hid', hanswered⟩
    by_cases heq : id' = id
    · rw [heq, hid] at hid'
      exact Or.inr (Option.some.inj hid').symm
    · rw [Function.update_of_ne heq] at hanswered
      exact Or.inl ⟨id', hid', hanswered⟩
  · rintro (⟨id', hid', hanswered⟩ | rfl)
    · refine ⟨id', hid', ?_⟩
      by_cases heq : id' = id
      · rw [heq, Function.update_self]
      · rw [Function.update_of_ne heq, hanswered]
    · exact ⟨id, hid, Function.update_self id _ turns⟩

/-- One query is made for each device. -/
theorem not_answered (hnodup : is.Nodup) (hid : is[id]? = some i) (hbefore : turns id ≠ .answered) :
    ¬ Answered is turns i := by
  rintro ⟨id', hid', hanswered⟩
  obtain ⟨hlt, hget⟩ := List.getElem?_eq_some_iff.1 hid
  obtain ⟨hlt', hget'⟩ := List.getElem?_eq_some_iff.1 hid'
  have heq : id' = id := (hnodup.getElem_inj_iff).1 (hget'.trans hget.symm)
  exact hbefore (heq ▸ hanswered)

section Steps

variable (h : Fanned reg found f start is holder turns w)

include h

theorem Fanned.outward (hout : Outward w w') : Fanned reg found f start is holder turns w' := by
  obtain ⟨o, rfl⟩ := hout
  exact ⟨h.registry, h.detecting, h.lock, h.fits, h.blank, h.collection, h.cached⟩

/-- A query goes on, and may take the lock or give it back. -/
theorem Fanned.turn {holder' : Option ℕ} (hbefore : turns id ≠ .answered) (hafter : t ≠ .answered)
    (hfits : t.Fits w.monitor.inventory.initialized)
    (hlock : ∀ j, (Function.update turns id t j).Locked ↔ holder' = some j) :
    Fanned reg found f start is holder' (Function.update turns id t)
      { w with detecting := holder'.isSome } := by
  have hsame : ∀ i, Answered is (Function.update turns id t) i ↔ Answered is turns i :=
    answered_update hbefore hafter
  refine ⟨h.registry, rfl, hlock, ?_, h.blank, fun hi => (h.collection hi).congr hsame,
    fun k e he => ?_⟩
  · exact (Function.forall_update_iff turns fun _ u => u.Fits _).2 ⟨hfits, fun j _ => h.fits j⟩
  · obtain ⟨i, hk, hi⟩ := h.cached k e he
    exact ⟨i, hk, (hsame i).2 hi⟩

theorem Fanned.lock_update (hlock : t.Locked ↔ (turns id).Locked) :
    ∀ j, (Function.update turns id t j).Locked ↔ holder = some j :=
  (Function.forall_update_iff turns fun j u => u.Locked ↔ holder = some j).2
    ⟨hlock.trans (h.lock id), fun j _ => h.lock j⟩

/-- A query goes on under the lock, or outside of it. -/
theorem Fanned.goesOn (hbefore : turns id ≠ .answered) (hafter : t ≠ .answered)
    (hfits : t.Fits w.monitor.inventory.initialized) (hlock : t.Locked ↔ (turns id).Locked) :
    Fanned reg found f start is holder (Function.update turns id t) w := by
  have hturn := h.turn hbefore hafter hfits (h.lock_update hlock)
  rwa [← h.detecting] at hturn

/-- A query takes the lock while nobody has it. -/
theorem Fanned.locks (hbefore : turns id = .starts) (hfree : w.detecting = false) :
    Fanned reg found f start is (some id) (Function.update turns id .locked)
      { w with detecting := true } := by
  have hnobody : holder = none := by
    rw [h.detecting] at hfree
    simpa using hfree
  refine h.turn (by simp [hbefore]) nofun trivial ?_
  refine (Function.forall_update_iff turns fun j u => u.Locked ↔ some id = some j).2
    ⟨iff_of_true (Or.inl rfl) rfl, fun j hj => ?_⟩
  rw [h.lock, hnobody]
  exact iff_of_false nofun fun heq => hj (Option.some.inj heq).symm

/-- The query that has stored what it found gives the lock back. -/
theorem Fanned.unlocks (hbefore : turns id = .stored) :
    Fanned reg found f start is none (Function.update turns id .ready)
      { w with detecting := false } := by
  have hholder : holder = some id := (h.lock id).1 (Or.inr (Or.inr hbefore))
  have hinit : w.monitor.inventory.initialized = true := by
    have hfits := h.fits id
    rwa [hbefore] at hfits
  refine h.turn (by simp [hbefore]) nofun hinit ?_
  refine (Function.forall_update_iff turns fun j u => u.Locked ↔ none = some j).2
    ⟨iff_of_false (by simp [Turn.Locked]) nofun, fun j hj => ?_⟩
  rw [h.lock, hholder]
  exact iff_of_false (fun heq => hj (Option.some.inj heq).symm) nofun

/-- The first detection is stored, before any query has been answered. -/
theorem Fanned.installs (hbefore : turns id = .missing) :
    Fanned reg found f start is holder (Function.update turns id .stored)
      { w with monitor := install found w.monitor } := by
  have hholder : holder = some id := (h.lock id).1 (Or.inr (Or.inl hbefore))
  have hinit : w.monitor.inventory.initialized = false := by
    have hfits := h.fits id
    rwa [hbefore] at hfits
  -- nothing was stored, so nobody has been answered and nothing is cached
  have hnone (i : UInt64) : ¬ Answered is turns i := by
    rintro ⟨j, _, hanswered⟩
    have hfits := h.fits j
    rw [hanswered, hinit] at hfits
    cases hfits
  have hsame : ∀ i, Answered is (Function.update turns id .stored) i ↔ Answered is turns i :=
    answered_update (by simp [hbefore]) nofun
  have hbase : detected found start = w.monitor.inventory.replace found := by
    rw [detected, ← h.blank hinit, hinit, if_neg Bool.false_ne_true]
  refine ⟨h.registry, h.detecting, h.lock_update (by simp [Turn.Locked, hbefore]), ?_,
    fun hblank => ?_, fun _ => ?_, fun k e he => ?_⟩
  · refine (Function.forall_update_iff turns fun _ u => u.Fits _).2 ⟨rfl, fun j hj => ?_⟩
    have hfits := h.fits j
    rw [hinit] at hfits
    cases ht : turns j with
    | starts | locked => trivial
    | missing =>
      -- another query at this place would hold the lock too
      have hsome := (h.lock j).1 (Or.inr (Or.inl ht))
      rw [hholder] at hsome
      exact absurd (Option.some.inj hsome).symm hj
    | stored | ready | answered =>
      rw [ht] at hfits
      cases hfits
  · cases hblank
  · rw [hbase]
    exact renewedAt_self fun i hi => hnone i ((hsame i).1 hi)
  · obtain ⟨i, _, hi⟩ := h.cached k e he
    exact absurd hi (hnone i)

/-- A query is answered, and what it has read is in its slot and, if anywhere, under its key. -/
theorem Fanned.answers {s : Monitor β} {o : σ} (hid : is[id]? = some i) (hbefore : turns id = .ready)
    (hreg : s.registry = reg)
    (hinit : s.inventory.initialized = w.monitor.inventory.initialized)
    (hinv : ∀ again, (∀ j, again j ↔ Answered is turns j ∨ j = i) →
      RenewedAt f (detected found start) again s.inventory)
    (hcache : ∀ k e, s.cache.item? k = some e →
      k = .device i ∨ ∃ e', w.monitor.cache.item? k = some e') :
    Fanned reg found f start is holder (Function.update turns id .answered)
      { w with monitor := s, outside := o } := by
  have hstored : s.inventory.initialized = true := by
    have hfits := h.fits id
    rw [hbefore] at hfits
    exact hinit.trans hfits
  -- answered are those of before and the one that asked for `i`
  have hself : ∀ j, Answered is (Function.update turns id .answered) j ↔
      Answered is turns j ∨ j = i := answered_update_self hid
  refine ⟨hreg, h.detecting, h.lock_update (by simp [Turn.Locked, hbefore]), ?_,
    fun hno => ?_, fun _ => hinv _ hself, fun k e he => ?_⟩
  · refine (Function.forall_update_iff turns fun _ u => u.Fits _).2 ⟨hstored, fun j _ => ?_⟩
    have hfits := h.fits j
    rwa [← hinit] at hfits
  · rw [hstored] at hno
    cases hno
  · rcases hcache k e he with rfl | ⟨e', he'⟩
    · exact ⟨i, rfl, (hself i).2 (Or.inr rfl)⟩
    · obtain ⟨j, hk, hj⟩ := h.cached k e' he'
      exact ⟨j, hk, (hself j).2 (Or.inl hj)⟩

end Steps

/-! ### The queries -/

section Rules

variable {Q : α → Turn → Prop}

theorem abides_yields {job : Job (Shared β σ) α} {a : α} (hjob : Yields a job) (hQ : Q a t) :
    Abides (fanout reg found f start is) id job t Q := by
  induction job with
  | done b =>
    obtain rfl : b = a := hjob
    exact hQ
  | step ready update next ih =>
    rintro turns w ⟨holder, h⟩ hturn
    obtain ⟨hready, hout, hnext⟩ := hjob w
    refine ⟨Or.inl hready, fun _ => ⟨t, ⟨holder, ?_⟩, ih w hnext⟩⟩
    rw [← hturn, Function.update_eq_self]
    exact h.outward hout

theorem abides_outside {g : σ → α × σ} (hQ : ∀ a, Q a t) :
    Abides (fanout reg found f start is) id (Shared.onOutside g : Job (Shared β σ) α) t Q := by
  refine abides_atomic fun turns w hholds hturn => ⟨t, ?_, hQ _⟩
  obtain ⟨holder, h⟩ := hholds
  rw [← hturn, Function.update_eq_self]
  exact ⟨holder, h.outward ⟨_, rfl⟩⟩

/-- A look at the monitor. -/
theorem abides_get {Q : Monitor β → Turn → Prop} (h : ∀ holder turns (w : Shared β σ),
    Fanned reg found f start is holder turns w → turns id = t →
      ∃ t', Fanned reg found f start is holder (Function.update turns id t') w ∧ Q w.monitor t') :
    Abides (fanout reg found f start is) id (get : Job (Shared β σ) (Monitor β)) t Q := by
  refine abides_atomic fun turns w hholds hturn => ?_
  obtain ⟨holder, hfanned⟩ := hholds
  obtain ⟨t', hfanned', hQ⟩ := h holder turns w hfanned hturn
  exact ⟨t', ⟨holder, hfanned'⟩, hQ⟩

theorem abides_modifyGet {g : Monitor β → α × Monitor β} (h : ∀ holder turns (w : Shared β σ),
    Fanned reg found f start is holder turns w → turns id = t →
      ∃ t', Fanned reg found f start is holder (Function.update turns id t')
        { w with monitor := (g w.monitor).2 } ∧ Q (g w.monitor).1 t') :
    Abides (fanout reg found f start is) id (modifyGet g : Job (Shared β σ) α) t Q := by
  refine abides_atomic fun turns w hholds hturn => ?_
  obtain ⟨holder, hfanned⟩ := hholds
  obtain ⟨t', hfanned', hQ⟩ := h holder turns w hfanned hturn
  exact ⟨t', ⟨holder, hfanned'⟩, hQ⟩

/-- A look at what does not change while the query stands where it stands. -/
theorem abides_read {Q : Monitor β → Turn → Prop}
    (hQ : ∀ s : Monitor β, s.registry = reg → Q s t) :
    Abides (fanout reg found f start is) id (get : Job (Shared β σ) (Monitor β)) t Q := by
  refine abides_get fun holder turns w h hturn => ⟨t, ?_, hQ _ h.registry⟩
  rwa [← hturn, Function.update_eq_self]

variable [Surroundings σ]

/-- Who waits for the lock waits for the query that has it. -/
theorem abides_exclusively {job : Job (Shared β σ) α}
    (h : Abides (fanout reg found f start is) id job .locked fun _ t => t = .stored) :
    Abides (fanout reg found f start is) id (Host.exclusively job) .starts fun _ t => t = .ready := by
  have henter : Abides (fanout reg found f start is) id
      (Shared.enterDetection : Job (Shared β σ) Unit) .starts fun _ t => t = .locked := by
    rintro turns w ⟨holder, hfanned⟩ hturn
    refine ⟨?_, fun hready => ⟨.locked, ⟨some id, hfanned.locks hturn (by simpa using hready)⟩, rfl⟩⟩
    cases hd : w.detecting with
    | false => exact Or.inl (by simp [hd])
    | true => exact Or.inr ⟨rfl, hd⟩
  have hleave : Abides (fanout reg found f start is) id
      (Shared.leaveDetection : Job (Shared β σ) Unit) .stored fun _ t => t = .ready := by
    refine abides_atomic fun turns w hholds hturn => ?_
    obtain ⟨holder, hfanned⟩ := hholds
    exact ⟨.ready, ⟨none, hfanned.unlocks hturn⟩, rfl⟩
  refine abides_bind (henter.mono fun u t ht => ?_)
  obtain rfl := ht
  refine abides_bind (h.mono fun a t ht => ?_)
  obtain rfl := ht
  exact abides_bind (hleave.mono fun u t ht => abides_pure ht)

end Rules

section Queries

variable [BackendCalls β (Job (Shared β σ))] [Surroundings σ]

/-- Making sure of a detection, a query ends where one is stored. -/
theorem abides_ensureDetected
    (hdetect : Yields found (reg.detectAll : Job (Shared β σ) (List Reading))) :
    Abides (fanout reg found f start is) id (ensureDetected : Job (Shared β σ) Unit) .starts
      fun _ t => t = .ready := by
  have hfirst : Abides (fanout reg found f start is) id (do
      if !(← isInitialized) then
        let found ← runDetection
        modify (install found) : Job (Shared β σ) Unit) .locked fun _ t => t = .stored := by
    refine abides_bind (abides_bind (abides_get fun holder turns w h hturn => ?_))
    cases hi : w.monitor.inventory.initialized with
    | true =>
      refine ⟨.stored, h.goesOn (by simp [hturn]) nofun hi ?_, rfl⟩
      simp [hturn, Turn.Locked]
    | false =>
      refine ⟨.missing, h.goesOn (by simp [hturn]) nofun hi ?_, ?_⟩
      · simp [hturn, Turn.Locked]
      · -- under the lock nothing is stored until this query stores what it finds
        refine abides_bind (abides_bind (abides_read fun s hs => ?_))
        rw [hs]
        refine abides_yields hdetect (abides_modifyGet fun holder turns w h hturn => ?_)
        exact ⟨.stored, h.installs hturn, rfl⟩
  refine abides_bind (abides_bind (abides_get fun holder turns w h hturn => ?_))
  cases hi : w.monitor.inventory.initialized with
  | true =>
    refine ⟨.ready, h.goesOn (by simp [hturn]) nofun hi ?_, rfl⟩
    simp [hturn, Turn.Locked]
  | false =>
    refine ⟨.starts, h.goesOn (by simp [hturn]) nofun trivial ?_, abides_exclusively hfirst⟩
    simp [hturn, Turn.Locked]

variable (hnodup : is.Nodup) (hid : is[id]? = some i)

include hnodup hid

omit [BackendCalls β (Job (Shared β σ))] [Surroundings σ] in
/-- A query that is not answered yet finds its slot as detection left it. -/
theorem Fanned.untouched (h : Fanned reg found f start is holder turns w)
    (hbefore : turns id = .ready) :
    RenewedAt f (detected found start) (Answered is turns) w.monitor.inventory ∧
      ¬ Answered is turns i ∧ w.monitor.cache.item? (.device i) = none := by
  have hinit : w.monitor.inventory.initialized = true := by
    have hfits := h.fits id
    rwa [hbefore] at hfits
  have hnot : ¬ Answered is turns i := not_answered hnodup hid (by simp [hbefore])
  refine ⟨h.collection hinit, hnot, Option.eq_none_iff_forall_ne_some.2 fun e he => ?_⟩
  obtain ⟨j, hk, hj⟩ := h.cached _ e he
  obtain rfl : i = j := congrArg Cache.Key.value hk
  exact hnot hj

/-- A query in flight is answered from its own slot, whatever the others have published. -/
theorem abides_close
    (hrefresh : ∀ r, Yields (f r) (reg.refresh r : Job (Shared β σ) (Status × Reading)))
    {slot : Slot} (hslot : (detected found start).slot? i = some slot) :
    Abides (fanout reg found f start is) id
      (close (.pending ⟨.device i, slot⟩) : Job (Shared β σ) Answer) .ready
      fun a t => t = .answered ∧ a = answerAt f (detected found start) i := by
  obtain ⟨hd, hindex, hgeneration⟩ := Inventory.slot?_eq_some.1 hslot
  have hanswer : answerAt f (detected found start) i = renewedAnswer f slot.reading := by
    rw [answerAt, hd]
  refine abides_bind (abides_bind (abides_read fun s hs => ?_))
  rw [hs]
  refine abides_yields (hrefresh slot.reading) ?_
  dsimp only
  cases hok : (f slot.reading).1.isOk with
  | true =>
    rw [if_pos rfl]
    refine abides_bind (abides_outside fun now => abides_modifyGet fun holder turns w h hturn => ?_)
    obtain ⟨hcoll, hnot, _⟩ := h.untouched hnodup hid hturn
    -- the slot is current still: no other query writes to it or turns the generation
    have hnow : w.monitor.inventory.slot? i = some slot := by
      refine Inventory.slot?_eq_some.2 ⟨(hcoll.unchanged i hnot).trans hd, hindex, ?_⟩
      rw [hcoll.frame]
      exact hgeneration
    have hstatus : (f slot.reading).1 = .ok := by simpa [Status.isOk] using hok
    refine ⟨.answered, ?_, rfl, ?_⟩
    · rw [publish_of_slot? hnow]
      refine h.answers hid hturn h.registry rfl (fun again hagain => ?_) fun k e he => ?_
      · rw [← renewed_of_ok hok]
        exact hcoll.set hd hnot hagain
      · by_cases hk : k = .device i
        · exact Or.inl hk
        · exact Or.inr ⟨e, Cache.item?_of_put hk he⟩
    · rw [publish_of_slot? hnow, hanswer, renewedAnswer, renewed_of_ok hok, hstatus]
      rfl
  | false =>
    rw [if_neg Bool.false_ne_true]
    refine abides_bind (abides_atomic fun turns w hholds hturn => ?_)
    obtain ⟨holder, h⟩ := hholds
    obtain ⟨hcoll, hnot, _⟩ := h.untouched hnodup hid hturn
    refine ⟨.answered, ⟨holder, h.answers hid hturn h.registry rfl (fun again hagain => ?_)
      fun k e he => Or.inr ⟨e, he⟩⟩, rfl, ?_⟩
    · refine hcoll.skip (fun d he => ?_) hnot hagain
      rw [hd] at he
      rw [← Option.some.inj he]
      exact renewed_of_bad hok
    · rw [hanswer, renewedAnswer, renewed_of_bad hok, Pending.failed]

/-- A query comes to what its slot held when nothing had been read again. -/
theorem abides_cached
    (hdetect : Yields found (reg.detectAll : Job (Shared β σ) (List Reading)))
    (hrefresh : ∀ r, Yields (f r) (reg.refresh r : Job (Shared β σ) (Status × Reading))) :
    Abides (fanout reg found f start is) id (cached i : Job (Shared β σ) Answer) .starts
      fun a t => t = .answered ∧ a = answerAt f (detected found start) i := by
  refine abides_bind ((abides_ensureDetected hdetect).mono fun u t ht => ?_)
  obtain rfl := ht
  refine abides_bind (abides_outside fun now => abides_bind ?_)
  refine abides_modifyGet fun holder turns w h hturn => ?_
  obtain ⟨hcoll, hnot, habsent⟩ := h.untouched hnodup hid hturn
  -- nobody else caches under this key, so there is no hit
  have hopen : openCached i now w.monitor =
      (.ofSlot (.device i) (w.monitor.inventory.slot? i), w.monitor) := by
    rw [openCached, Cache.get_of_absent habsent]
  have hslot : w.monitor.inventory.slot? i = (detected found start).slot? i := by
    rw [Inventory.slot?, Inventory.slot?, hcoll.unchanged i hnot, hcoll.frame]
  rw [hopen, hslot]
  cases hs : (detected found start).slot? i with
  | none =>
    have hd : (detected found start).get? i = none := Option.map_eq_none_iff.1 hs
    refine ⟨.answered, h.answers hid hturn h.registry rfl (fun again hagain => ?_)
      fun k e he => Or.inr ⟨e, he⟩, rfl, by rw [answerAt, hd]⟩
    exact hcoll.skip (fun d he => by rw [hd] at he; cases he) hnot hagain
  | some slot =>
    refine ⟨.ready, ?_, abides_close hnodup hid hrefresh hs⟩
    rwa [← hturn, Function.update_eq_self]

end Queries

end GpuTelemetry.Monitor
