import GpuTelemetry.Proofs.Job.Run
import Mathlib.Data.List.Induction
import Mathlib.Data.Nat.Notation
import Mathlib.Logic.Function.Basic

namespace GpuTelemetry

inductive Marked (μ σ α : Type) : Type where
  | done (a : α)
  | step (mark : μ) (ready : σ → Bool) (update : σ → σ) (next : σ → Marked μ σ α)

namespace Marked

variable {μ σ α γ : Type}

def bind : Marked μ σ γ → (γ → Marked μ σ α) → Marked μ σ α
  | .done c, f => f c
  | .step mark ready update next, f => .step mark ready update fun s => (next s).bind f

instance : Monad (Marked μ σ) where
  pure := .done
  bind := bind

def job : Marked μ σ α → Job σ α
  | .done a => .done a
  | .step _ ready update next => .step ready update fun s => (next s).job

def all (mark : μ) : Job σ α → Marked μ σ α
  | .done a => .done a
  | .step ready update next => .step mark ready update fun s => all mark (next s)

def lead (first mark : μ) : Job σ α → Marked μ σ α
  | .done a => .done a
  | .step ready update next => .step first ready update fun s => all mark (next s)

def next? (s : σ) : Marked μ σ α → Option (μ × Marked μ σ α × σ)
  | .done _ => none
  | .step mark ready update next => if ready s then some (mark, next s, update s) else none

theorem job_pure (a : α) : (pure a : Marked μ σ α).job = pure a := rfl

theorem job_bind (m : Marked μ σ γ) (f : γ → Marked μ σ α) :
    (m >>= f).job = m.job >>= fun c => (f c).job := by
  change (m.bind f).job = m.job.bind fun c => (f c).job
  induction m with
  | done c => rfl
  | step mark ready update next ih => exact congrArg (Job.step ready update) (funext ih)

theorem job_all (mark : μ) (j : Job σ α) : (all mark j).job = j := by
  induction j with
  | done a => rfl
  | step ready update next ih => exact congrArg (Job.step ready update) (funext ih)

theorem job_lead (first mark : μ) (j : Job σ α) : (lead first mark j).job = j := by
  cases j with
  | done a => rfl
  | step ready update next =>
    exact congrArg (Job.step ready update) (funext fun s => job_all mark (next s))

/-- A job takes the same steps with marks and without. -/
theorem next?_job (m : Marked μ σ α) (s : σ) :
    m.job.next? s = (m.next? s).map fun x => (x.2.1.job, x.2.2) := by
  cases m with
  | done a => rfl
  | step mark ready update next =>
    rw [job, Job.next?, next?]
    split
    · rfl
    · rfl

theorem next?_eq_some {m m' : Marked μ σ α} {s s' : σ} {mark : μ}
    (h : m.next? s = some (mark, m', s')) : ∃ ready update next,
      m = .step mark ready update next ∧ ready s = true ∧ m' = next s ∧ s' = update s := by
  cases m with
  | done a => cases h
  | step mark ready update next =>
    obtain ⟨hready, heq⟩ := Option.ite_some_none_eq_some.1 h
    cases heq
    exact ⟨ready, update, next, rfl, hready, rfl, rfl⟩

/-! ### How many steps have a mark -/

/-- Whichever way the job goes, `n` of its steps have a mark that satisfies `P`. -/
def Has (P : μ → Bool) : Marked μ σ α → ℕ → Prop
  | .done _, n => n = 0
  | .step mark _ _ next, n => ∃ rest, n = (P mark).toNat + rest ∧ ∀ s, (next s).Has P rest

section Has

variable {P : μ → Bool} {k n : ℕ}

theorem has_pure (a : α) : (pure a : Marked μ σ α).Has P 0 := rfl

/-- Marks of the two parts of a job add up. -/
theorem has_bind {m : Marked μ σ γ} {f : γ → Marked μ σ α} (h : m.Has P k)
    (hf : ∀ c, (f c).Has P n) : (m >>= f).Has P (k + n) := by
  induction m generalizing k with
  | done c =>
    obtain rfl : k = 0 := h
    rw [Nat.zero_add]
    exact hf c
  | step mark ready update next ih =>
    obtain ⟨rest, rfl, hrest⟩ := h
    refine ⟨rest + n, ?_, fun s => ih s (hrest s)⟩
    omega

theorem has_all {mark : μ} (hmark : P mark = false) (j : Job σ α) : (all mark j).Has P 0 := by
  induction j with
  | done a => rfl
  | step ready update next ih =>
    refine ⟨0, ?_, ih⟩
    rw [hmark]
    rfl

end Has

/-! ### Logs -/

structure Entry (μ σ : Type) where
  who : ℕ
  mark : μ
  before : σ
  after : σ

/-- Jobs take steps in any order, and leave a log. -/
inductive Logs (jobs : ℕ → Marked μ σ α) (s : σ) :
    List (Entry μ σ) → (ℕ → Marked μ σ α) → σ → Prop
  | start : Logs jobs s [] jobs s
  | step {log : List (Entry μ σ)} {jobs' : ℕ → Marked μ σ α} {s' s'' : σ} {i : ℕ} {mark : μ}
    {job : Marked μ σ α} (h : Logs jobs s log jobs' s')
    (hnext : (jobs' i).next? s' = some (mark, job, s'')) :
    Logs jobs s (log ++ [⟨i, mark, s', s''⟩]) (Function.update jobs' i job) s''

section Logs

variable {jobs jobs' : ℕ → Marked μ σ α} {s s' : σ} {log : List (Entry μ σ)}

/-- The beginning of a log is a log. -/
theorem Logs.of_append {more : List (Entry μ σ)} (h : Logs jobs s (log ++ more) jobs' s') :
    ∃ jobs' s', Logs jobs s log jobs' s' := by
  induction more using List.reverseRecOn generalizing jobs' s' with
  | nil =>
    rw [List.append_nil] at h
    exact ⟨jobs', s', h⟩
  | append_singleton more e ih =>
    rw [← List.append_assoc] at h
    generalize hlog : log ++ more ++ [e] = longer at h
    cases h with
    | start => simp at hlog
    | step h hnext =>
      obtain ⟨rfl, _⟩ := List.append_inj' hlog rfl
      exact ih h

/-- The steps with a mark that a job has in the log, and those it still has before it. -/
theorem Logs.has {P : μ → Bool} {total : ℕ → ℕ} (h : Logs jobs s log jobs' s')
    (hjobs : ∀ i, (jobs i).Has P (total i)) (i : ℕ) : ∃ rest, (jobs' i).Has P rest ∧
      total i = log.countP (fun e => e.who = i ∧ P e.mark = true) + rest := by
  induction h with
  | start => exact ⟨total i, hjobs i, by simp⟩
  | @step log jobs' s' s'' j mark job _ hnext ih =>
    obtain ⟨rest, hrest, htotal⟩ := ih
    rw [List.countP_append, List.countP_singleton]
    -- a step of this job moves one mark from what it has to the log, others change neither
    by_cases hj : i = j
    · subst hj
      obtain ⟨ready, update, next, hstep, _, rfl, _⟩ := next?_eq_some hnext
      rw [hstep] at hrest
      obtain ⟨rest', rfl, hrest'⟩ := hrest
      refine ⟨rest', ?_, ?_⟩
      · rw [Function.update_self]
        exact hrest' s'
      · cases hmark : P mark with
        | true => simp [htotal, hmark]; omega
        | false => simp [htotal, hmark]
    · refine ⟨rest, ?_, ?_⟩
      · rw [Function.update_of_ne hj]
        exact hrest
      · simp [htotal, Ne.symm hj]

end Logs

end Marked

/-- Every step of the job changes the state as `R` allows, whatever ran before it. -/
def Job.Always {σ α : Type} (R : σ → σ → Prop) : Job σ α → Prop
  | .done _ => True
  | .step _ update next => ∀ s, R s (update s) ∧ (next s).Always R

theorem Job.Always.mono {σ α : Type} {R R' : σ → σ → Prop} {job : Job σ α} (h : job.Always R)
    (hR : ∀ s s', R s s' → R' s s') : job.Always R' := by
  induction job with
  | done a => trivial
  | step ready update next ih => exact fun s => ⟨hR _ _ (h s).1, ih s (h s).2⟩

/-- What each of two parts does in every step, both do together. -/
theorem Job.always_bind {σ α γ : Type} {R : σ → σ → Prop} {job : Job σ γ} {f : γ → Job σ α}
    (h : job.Always R) (hf : ∀ c, (f c).Always R) : (job >>= f).Always R := by
  induction job with
  | done c => exact hf c
  | step ready update next ih => exact fun s => ⟨(h s).1, ih s (h s).2⟩

end GpuTelemetry
