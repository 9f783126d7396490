import GpuTelemetry.Cache.Basic
import Mathlib.Algebra.Group.Int.Defs

namespace GpuTelemetry

def IsWord (n : ℤ) : Prop := -2 ^ 63 ≤ n ∧ n < 2 ^ 63

theorem toInt_sub_of_isWord {a b : Int64} (h : IsWord (a.toInt - b.toInt)) :
    (a - b).toInt = a.toInt - b.toInt := by
  obtain ⟨hlow, hhigh⟩ := h
  rw [Int64.toInt_sub]
  exact Int.bmod_eq_of_le (by omega) (by omega)

theorem toInt_mul_of_isWord {a b : Int64} (h : IsWord (a.toInt * b.toInt)) :
    (a * b).toInt = a.toInt * b.toInt := by
  obtain ⟨hlow, hhigh⟩ := h
  rw [Int64.toInt_mul]
  exact Int.bmod_eq_of_le (by omega) (by omega)

structure Instant.UpTo (a b : Instant) : Prop where
  le : a.toInt ≤ b.toInt
  span : b.toInt - a.toInt < 2 ^ 63

instance (a b : Instant) : Decidable (a.UpTo b) :=
  decidable_of_iff (a.toInt ≤ b.toInt ∧ b.toInt - a.toInt < 2 ^ 63)
    ⟨fun h => ⟨h.1, h.2⟩, fun h => ⟨h.le, h.span⟩⟩

theorem Instant.UpTo.isWord {a b : Instant} (h : a.UpTo b) : IsWord (b.toInt - a.toInt) := by
  have hle := h.le
  have hspan := h.span
  exact ⟨by omega, by omega⟩

/-- Between two readings that are not negative there is never more time than a word can count. -/
theorem Instant.isWord_sub {a b : Instant} (ha : 0 ≤ a.toInt) (hb : 0 ≤ b.toInt) :
    IsWord (b.toInt - a.toInt) := by
  have ha' := a.toInt_lt
  have hb' := b.toInt_lt
  exact ⟨by omega, by omega⟩

namespace Cache

/-- Less than the lifetime of a cache with policy `p` lies between `t₀` and `t`. -/
def Policy.Within (p : Policy) (t₀ t : Instant) : Prop :=
  t.toInt - t₀.toInt < p.bounded.ttl.toInt * 1000000

instance (p : Policy) (t₀ t : Instant) : Decidable (p.Within t₀ t) :=
  inferInstanceAs (Decidable (_ < _))

theorem toInt_maxTtl : maxTtl.toInt = 9223372036854 := by decide

/-- A lifetime is cut off at zero and at the longest one that fits into nanoseconds. -/
theorem Policy.toInt_bounded_ttl (p : Policy) :
    p.bounded.ttl.toInt = max 0 (min p.ttl.toInt 9223372036854) := by
  have hlong : p.ttl > maxTtl ↔ 9223372036854 < p.ttl.toInt := by
    rw [gt_iff_lt, Int64.lt_iff_toInt_lt, toInt_maxTtl]
  have hneg : p.ttl < 0 ↔ p.ttl.toInt < 0 := by
    rw [Int64.lt_iff_toInt_lt, Int64.toInt_zero]
  unfold bounded
  split
  · have h := hlong.1 ‹_›
    simp only [toInt_maxTtl]
    omega
  · have h := mt hlong.2 ‹_›
    split
    · have h0 := hneg.1 ‹_›
      simp only [Int64.toInt_zero]
      omega
    · have h0 := mt hneg.2 ‹_›
      omega

@[simp] theorem Policy.bounded_maxEntries (p : Policy) : p.bounded.maxEntries = p.maxEntries := by
  unfold bounded
  split
  · rfl
  · split <;> rfl

/-- `maxTtl` is the largest number of milliseconds whose nanoseconds are still a word. -/
theorem le_toInt_maxTtl_iff {n : ℤ} (hn : 0 ≤ n) : n ≤ maxTtl.toInt ↔ IsWord (n * 1000000) := by
  rw [toInt_maxTtl]
  unfold IsWord
  constructor
  · intro h
    exact ⟨by omega, by omega⟩
  · rintro ⟨_, h⟩
    omega

/-- One millisecond more and the nanoseconds wrap around. -/
example : ((maxTtl + 1) * nanosPerMilli).toInt < 0 := by decide

theorem Policy.bounded_ttl_mem (p : Policy) :
    0 ≤ p.bounded.ttl.toInt ∧ p.bounded.ttl.toInt ≤ maxTtl.toInt := by
  have hb := p.toInt_bounded_ttl
  rw [toInt_maxTtl]
  exact ⟨by omega, by omega⟩

/-- A lifetime between these two is kept as it is. -/
theorem Policy.bounded_ttl_of_mem {p : Policy} (h0 : 0 ≤ p.ttl.toInt)
    (hmax : p.ttl.toInt ≤ maxTtl.toInt) : p.bounded.ttl = p.ttl := by
  have hb := p.toInt_bounded_ttl
  rw [toInt_maxTtl] at hmax
  apply Int64.toInt_inj.1
  omega

theorem Policy.bounded_ttl_mono {p q : Policy} (h : p.ttl.toInt ≤ q.ttl.toInt) :
    p.bounded.ttl.toInt ≤ q.bounded.ttl.toInt := by
  have hp := p.toInt_bounded_ttl
  have hq := q.toInt_bounded_ttl
  omega

/-- The bounded lifetime can be counted in nanoseconds. -/
theorem Policy.bounded_nanos (p : Policy) :
    (p.bounded.ttl * nanosPerMilli).toInt = p.bounded.ttl.toInt * 1000000 :=
  toInt_mul_of_isWord ((le_toInt_maxTtl_iff p.bounded_ttl_mem.1).1 p.bounded_ttl_mem.2)

theorem Entry.isFresh_iff_of_isWord (p : Policy) {e : Entry} {now : Instant}
    (h : IsWord (now.toInt - e.createdAt.toInt)) :
    e.isFresh now p.bounded.ttl = true ↔ p.Within e.createdAt now := by
  unfold isFresh Policy.Within
  rw [decide_eq_true_iff, Int64.lt_iff_toInt_lt, toInt_sub_of_isWord h, p.bounded_nanos]

/-- An entry is fresh as long as less than the lifetime has passed. -/
theorem Entry.isFresh_iff (p : Policy) {e : Entry} {now : Instant} (h : e.createdAt.UpTo now) :
    e.isFresh now p.bounded.ttl = true ↔ p.Within e.createdAt now :=
  Entry.isFresh_iff_of_isWord p h.isWord

/-- What is out of its lifetime stays so. -/
theorem Policy.Within.of_le {p : Policy} {t₀ t t' : Instant} (h : p.Within t₀ t')
    (ht : t.toInt ≤ t'.toInt) : p.Within t₀ t := by
  unfold Within at h ⊢
  omega

/-- What lies within a lifetime lies within a longer one. -/
theorem Policy.Within.mono {p q : Policy} {t₀ t : Instant} (h : p.Within t₀ t)
    (hpq : p.ttl.toInt ≤ q.ttl.toInt) : q.Within t₀ t := by
  have hle := Policy.bounded_ttl_mono hpq
  unfold Within at h ⊢
  omega

/-- The comparison by which `e` is fresh at `now` in a cache with lifetime `ttl` never leaves the signed
64-bit words, and decides as the integers do. -/
structure Entry.Exact (e : Entry) (now : Instant) (ttl : Millis) : Prop where
  nanos : IsWord (ttl.toInt * 1000000)
  toInt_nanos : (ttl * nanosPerMilli).toInt = ttl.toInt * 1000000
  span : IsWord (now.toInt - e.createdAt.toInt)
  toInt_span : (now - e.createdAt).toInt = now.toInt - e.createdAt.toInt
  isFresh_iff : e.isFresh now ttl = true ↔ now.toInt - e.createdAt.toInt < ttl.toInt * 1000000

theorem Entry.exact_bounded (p : Policy) {e : Entry} {now : Instant} (he : 0 ≤ e.createdAt.toInt)
    (hnow : 0 ≤ now.toInt) : e.Exact now p.bounded.ttl where
  nanos := (le_toInt_maxTtl_iff p.bounded_ttl_mem.1).1 p.bounded_ttl_mem.2
  toInt_nanos := p.bounded_nanos
  span := Instant.isWord_sub he hnow
  toInt_span := toInt_sub_of_isWord (Instant.isWord_sub he hnow)
  isFresh_iff := Entry.isFresh_iff_of_isWord p (Instant.isWord_sub he hnow)

/-- **Freshness never overflows.** Whatever lifetime a cache is given, it keeps one between zero and
`maxTtl`, the one given if that lies there. Between any two clock readings that are not negative the
comparison with it is exact, so what is fresh is so in every cache that was given a longer lifetime. -/
theorem freshness_exact (p : Policy) :
    (0 ≤ (new p).policy.ttl.toInt ∧ (new p).policy.ttl.toInt ≤ maxTtl.toInt) ∧
    (0 ≤ p.ttl.toInt → p.ttl.toInt ≤ maxTtl.toInt → (new p).policy.ttl = p.ttl) ∧
    ∀ (e : Entry) (now : Instant), 0 ≤ e.createdAt.toInt → 0 ≤ now.toInt →
      e.Exact now (new p).policy.ttl ∧
      ∀ q : Policy, p.ttl.toInt ≤ q.ttl.toInt → e.isFresh now (new p).policy.ttl = true →
        e.isFresh now (new q).policy.ttl = true := by
  refine ⟨p.bounded_ttl_mem, Policy.bounded_ttl_of_mem, ?_⟩
  intro e now he hnow
  refine ⟨Entry.exact_bounded p he hnow, ?_⟩
  intro q hpq hfresh
  -- both comparisons are those of the integers, and there the longer lifetime is the larger bound
  have hspan := Instant.isWord_sub he hnow
  have hwithin : p.Within e.createdAt now := (Entry.isFresh_iff_of_isWord p hspan).1 hfresh
  exact (Entry.isFresh_iff_of_isWord q hspan).2 (hwithin.mono hpq)

end Cache

end GpuTelemetry
