import GpuTelemetry.Monitor.Ticket

namespace GpuTelemetry.Ticket

inductive Ask where
  | get
  | ready
  | wait

inductive Reply where
  | answer (a : Answer)
  | ready (b : Bool)
  /-- A wait without bound is over. -/
  | over

inductive Stop where
  /-- There is nothing to come back with yet. -/
  | blocks
  /-- The call went to a channel from which the result had been taken. -/
  | gone

/-- A call would go to the channel, since nothing is kept, but the result has been taken from there. -/
def astray (t : Ticket) : Bool :=
  t.kept.isNone && match t.channel with
    | .taken => true
    | _ => false

def ask (t : Ticket) : Ask → Except Stop (Reply × Ticket)
  | .get =>
    match t.get with
    | (.answered a, t) => .ok (.answer a, t)
    | (.waiting, _) => .error .blocks
    | (.spent, _) => .error .gone
  | .ready => if t.astray then .error .gone else .ok (.ready t.isReady, t)
  | .wait =>
    if t.astray then .error .gone
    else if t.waited then .ok (.over, t)
    else .error .blocks

def askAll : List Ask → Ticket → Except Stop (List Reply × Ticket)
  | [], t => .ok ([], t)
  | q :: qs, t => do
    let (r, t) ← t.ask q
    let (rs, t) ← askAll qs t
    .ok (r :: rs, t)

def Ask.reply (result : Option Answer) : Ask → Reply
  | .get =>
    .answer (result.getD { snapshot := some .sentinel, status := .timeout, fromCache := false })
  | .ready => .ready result.isSome
  | .wait => .over

/-- The call comes back though the job is not over: it does not wait, or not without a bound. -/
def Ask.returnsEarly (timeout : Option Millis) : Ask → Bool
  | .get => timeout.isSome
  | .ready => true
  | .wait => false

def Reply.Tells : Reply → Prop
  | .answer a => a.status ≠ .timeout
  | .ready b => b = true
  | .over => True

/-- The later reply `y` takes nothing back of what `x` has shown. -/
def Reply.Upheld (x y : Reply) : Prop :=
  x.Tells → y.Tells ∧ ∀ a b, x = .answer a → y = .answer b → b = a

def Settled (a : Answer) (t : Ticket) : Prop :=
  t.kept = some a ∨ t.kept = none ∧ t.channel = .ready a

variable {timeout : Option Millis} {t t₁ : Ticket} {a : Answer} {q : Ask} {r : Reply}

theorem askAll_cons (h : t.ask q = .ok (r, t₁)) (qs : List Ask) :
    askAll (q :: qs) t = (askAll qs t₁).map fun x => (r :: x.1, x.2) := by
  rw [askAll, h]
  cases h' : askAll qs t₁ <;> simp [h', bind, Except.bind, Except.map]

theorem askAll_cons_of_error {e : Stop} (h : t.ask q = .error e) (qs : List Ask) :
    askAll (q :: qs) t = .error e := by
  rw [askAll, h]
  rfl

theorem settled_complete : ({ timeout } : Ticket).complete a |>.Settled a := Or.inr ⟨rfl, rfl⟩

theorem Settled.not_astray (h : t.Settled a) : t.astray = false := by
  rcases h with hk | ⟨hk, hc⟩
  · simp [astray, hk]
  · simp [astray, hk, hc]

theorem Settled.isReady (h : t.Settled a) : t.isReady = true := by
  rcases h with hk | ⟨hk, hc⟩
  · simp [Ticket.isReady, hk]
  · simp [Ticket.isReady, hk, hc]

/-- Asking for the result takes it out of the channel the first time and keeps it. -/
theorem Settled.get (h : t.Settled a) : ∃ t', t.get = (.answered a, t') ∧ t'.Settled a := by
  rcases h with hk | ⟨hk, hc⟩
  · exact ⟨t, by rw [Ticket.get, hk], Or.inl hk⟩
  · exact ⟨_, by rw [Ticket.get, hk, hc], Or.inl rfl⟩

/-- Once the result is there, every call comes back and leaves it there. -/
theorem Settled.ask (h : t.Settled a) (q : Ask) :
    ∃ t', t.ask q = .ok (q.reply (some a), t') ∧ t'.Settled a := by
  cases q with
  | get =>
    obtain ⟨t', hget, ht'⟩ := h.get
    exact ⟨t', by rw [Ticket.ask, hget]; rfl, ht'⟩
  | ready => exact ⟨t, by simp [Ticket.ask, h.not_astray, h.isReady, Ask.reply], h⟩
  | wait => exact ⟨t, by simp [Ticket.ask, h.not_astray, waited, h.isReady, Ask.reply], h⟩

/-- Any calls in a row come back, with the same result each time. -/
theorem Settled.askAll (h : t.Settled a) (qs : List Ask) :
    ∃ t', Ticket.askAll qs t = .ok (qs.map (·.reply (some a)), t') ∧ t'.Settled a := by
  induction qs generalizing t with
  | nil => exact ⟨t, rfl, h⟩
  | cons q qs ih =>
    obtain ⟨t₁, hask, h₁⟩ := h.ask q
    obtain ⟨t', hrest, h'⟩ := ih h₁
    exact ⟨t', by rw [askAll_cons hask, hrest]; rfl, h'⟩

/-- While the job runs a call leaves the ticket as it is. -/
theorem ask_running (q : Ask) : ({ timeout } : Ticket).ask q =
    if q.returnsEarly timeout then .ok (q.reply none, { timeout }) else .error .blocks := by
  cases q with
  | get => cases timeout <;> rfl
  | ready => rfl
  | wait => rfl

/-- Before the result is there, calls come back only if none of them waits without a bound. -/
theorem askAll_running (qs : List Ask) : askAll qs { timeout } =
    if qs.all (·.returnsEarly timeout) then .ok (qs.map (·.reply none), { timeout })
    else .error .blocks := by
  induction qs with
  | nil => rfl
  | cons q qs ih =>
    have hask : ({ timeout } : Ticket).ask q = _ := ask_running q
    cases hq : q.returnsEarly timeout with
    | false =>
      rw [hq] at hask
      rw [askAll_cons_of_error hask, List.all_cons, hq]
      rfl
    | true =>
      rw [hq] at hask
      rw [askAll_cons hask, ih, List.all_cons, hq, Bool.true_and]
      split <;> rfl

/-- Once the result is there every reply shows it, always the same. -/
theorem upheld_replies (ha : a.status ≠ .timeout) {before later : List Ask}
    (hbefore : before.all (·.returnsEarly timeout) = true) :
    (before.map (·.reply none) ++ later.map (·.reply (some a))).Pairwise Reply.Upheld := by
  have hearly (q : Ask) (hq : q.returnsEarly timeout = true) : ¬ (q.reply none).Tells := by
    cases q with
    | get => exact fun h => h rfl
    | ready => exact Bool.false_ne_true
    | wait => cases hq
  have hlate (q : Ask) : (q.reply (some a)).Tells := by
    cases q with
    | get => exact ha
    | ready => rfl
    | wait => trivial
  have hanswer (q : Ask) (b : Answer) (hq : q.reply (some a) = .answer b) : b = a := by
    cases q with
    | get => cases hq; rfl
    | ready => cases hq
    | wait => cases hq
  refine List.pairwise_append.2 ⟨?_, ?_, ?_⟩
  -- an early reply shows nothing, so there is nothing to take back
  · refine List.pairwise_map.2 (List.pairwise_of_forall_mem_list fun q hq q' _ htells => ?_)
    exact absurd htells (hearly q (List.all_eq_true.1 hbefore q hq))
  · refine List.pairwise_map.2 (List.pairwise_of_forall fun q q' _ => ⟨hlate q', fun b c hb hc => ?_⟩)
    rw [hanswer q b hb, hanswer q' c hc]
  · intro x hx y _ htells
    obtain ⟨q, hq, rfl⟩ := List.mem_map.1 hx
    exact absurd htells (hearly q (List.all_eq_true.1 hbefore q hq))

/-- **A result is handed out for good.** While the job runs, a bounded request for the result comes back
with the sentinel and says that it timed out, and a call without a bound does not come back. From the
moment the job hands in its result every call comes back with that result, however many there are and
whatever was asked before; so nothing that a reply has shown is taken back by a later one. No call ever
goes to a channel that has been emptied. -/
theorem result_stays_with_ticket (timeout : Option Millis) (before later : List Ask) (a : Answer)
    (ha : a.status ≠ .timeout) :
    askAll before { timeout } =
      (if before.all (·.returnsEarly timeout) then .ok (before.map (·.reply none), { timeout })
      else .error .blocks) ∧
    ∀ early t, askAll before { timeout } = .ok (early, t) →
      ∃ late t', askAll later (t.complete a) = .ok (late, t') ∧
        late = later.map (·.reply (some a)) ∧ (early ++ late).Pairwise Reply.Upheld := by
  refine ⟨askAll_running before, fun early t hearly => ?_⟩
  rw [askAll_running] at hearly
  -- before the result is there some call may wait without end, and then none comes after it
  cases hall : before.all (·.returnsEarly timeout) with
  | false =>
    rw [hall] at hearly
    cases hearly
  | true =>
    rw [hall] at hearly
    cases hearly
    obtain ⟨t', hlate, -⟩ := settled_complete.askAll later
    exact ⟨_, t', hlate, rfl, upheld_replies ha hall⟩

/-- Two requests that time out, and then two that do not. -/
theorem result_stays_with_ticket_of_late :
    (Answer.fresh .sentinel).status ≠ .timeout ∧
    askAll [.ready, .get, .get] { timeout := some 20 } =
      .ok ([.ready false, .answer .timedOut, .answer .timedOut], { timeout := some 20 }) ∧
    ∃ t, askAll [.get, .ready, .wait, .get]
        (Ticket.complete (.fresh .sentinel) { timeout := some 20 }) =
      .ok ([.answer (.fresh .sentinel), .ready true, .over, .answer (.fresh .sentinel)], t) := by
  have h := result_stays_with_ticket (some 20) [.ready, .get, .get] [.get, .ready, .wait, .get]
    (.fresh .sentinel) (by decide)
  obtain ⟨late, t, hlate, rfl, -⟩ := h.2 _ _ h.1
  exact ⟨by decide, h.1, t, hlate⟩

end GpuTelemetry.Ticket
