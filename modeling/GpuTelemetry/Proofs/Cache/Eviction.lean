import GpuTelemetry.Proofs.Cache.View
import Mathlib.Data.Prod.Lex
import Mathlib.Data.List.Nodup
import Mathlib.Tactic.ByContra

namespace GpuTelemetry.Cache

def Entry.rank (e : Entry) : ℤ ×ₗ ℕ ×ₗ ℕ :=
  toLex (e.lastAccessedAt.toInt, toLex (e.accessCount.toNat, e.sequence.toNat))

/-- An entry goes before another one if its rank is less. -/
theorem Entry.before_iff (a b : Entry) : a.before b = true ↔ a.rank < b.rank := by
  have hinst (x y : Instant) : x = y ↔ x.toInt = y.toInt := Int64.toInt_inj.symm
  have hword (x y : UInt64) : x = y ↔ x.toNat = y.toNat := UInt64.toNat_inj.symm
  simp only [Entry.rank, Prod.Lex.toLex_lt_toLex, Entry.before, ← hinst, ← hword,
    ← Int64.lt_iff_toInt_lt, ← UInt64.lt_iff_toNat_lt]
  by_cases h1 : a.lastAccessedAt = b.lastAccessedAt
  · by_cases h2 : a.accessCount = b.accessCount
    · simp [h1, h2]
    · simp [h1, h2]
  · simp [h1]

/-- Entries stored under different numbers differ in rank. -/
theorem Entry.sequence_eq_of_rank_eq {a b : Entry} (h : a.rank = b.rank) :
    a.sequence = b.sequence := by
  have h1 := congrArg (fun x => (ofLex (ofLex x).2).2) h
  exact UInt64.toNat_inj.1 h1

/-- A search for a smaller rank ends at the smallest. -/
theorem foldl_before_le (es : List (Key × Entry)) (p : Key × Entry) :
    ∀ q ∈ p :: es, (es.foldl (fun best q => if q.2.before best.2 then q else best) p).2.rank ≤
      q.2.rank := by
  induction es generalizing p with
  | nil => simp
  | cons x es ih =>
    intro q hq
    rw [List.foldl_cons]
    -- the best so far is `x` or still `p`, and the induction is about any best
    by_cases hx : x.2.before p.2
    · rw [if_pos hx]
      rcases List.mem_cons.1 hq with rfl | hq
      · exact (ih x x (by simp)).trans ((Entry.before_iff _ _).1 hx).le
      · exact ih x q hq
    · rw [if_neg hx]
      rcases List.mem_cons.1 hq with rfl | hq
      · exact ih q q (by simp)
      · rcases List.mem_cons.1 hq with rfl | hq
        · exact (ih p p (by simp)).trans (not_lt.1 (mt (Entry.before_iff _ _).2 hx))
        · exact ih p q (by simp [hq])

namespace Entries

variable {es : Entries} {k j : Key} {e : Entry}

/-- No entry goes before the one given up. -/
theorem victim?_rank_le {v : Key × Entry} (h : es.victim? = some v) :
    ∀ p ∈ es, v.2.rank ≤ p.2.rank := by
  cases es with
  | nil => cases h
  | cons p ps =>
    cases h
    exact foldl_before_le ps p

theorem victim?_isSome (h : es ≠ []) : ∃ v, es.victim? = some v := by
  cases es with
  | nil => exact absurd rfl h
  | cons p ps => exact ⟨_, rfl⟩

def keys (es : Entries) : List Key := es.map Prod.fst

theorem keys_replace : keys (replace es k e) = keys es := by
  simp only [keys, replace, List.map_map]
  apply List.map_congr_left
  intro p _
  by_cases hp : p.1 = k <;> simp [hp]

theorem keys_erase_nodup (h : (keys es).Nodup) (k : Key) : (keys (erase es k)).Nodup :=
  h.sublist (List.filter_sublist.map Prod.fst)

theorem mem_keys : k ∈ keys es ↔ (find? es k).isSome := by
  constructor
  · intro h
    obtain ⟨p, hp, rfl⟩ := List.mem_map.1 h
    by_contra hnone
    exact find?_eq_none.1 (by simpa using hnone) p hp rfl
  · intro h
    obtain ⟨e, he⟩ := Option.isSome_iff_exists.1 h
    exact List.mem_map_of_mem (f := Prod.fst) (mem_of_find? he)

theorem length_replace : (replace es k e).length = es.length := by simp [replace]

theorem find?_of_mem (h : (keys es).Nodup) (hm : (k, e) ∈ es) : find? es k = some e := by
  have hk : k ∈ keys es := List.mem_map_of_mem (f := Prod.fst) hm
  obtain ⟨f, hf⟩ := Option.isSome_iff_exists.1 (mem_keys.1 hk)
  have hp := List.inj_on_of_nodup_map h hm (mem_of_find? hf) rfl
  rw [hf, (Prod.mk.inj hp).2]

/-- Dropping a key drops one entry at most. -/
theorem length_erase (h : (keys es).Nodup) (k : Key) :
    (erase es k).length + (if (find? es k).isSome then 1 else 0) = es.length := by
  induction es with
  | nil => rfl
  | cons p es ih =>
    have hp := List.nodup_cons.1 h
    have hrest := ih hp.2
    by_cases hk : p.1 = k
    · -- no key is there twice, so the rest is without it
      have hnone : (find? es k).isSome = false := by
        rw [← Bool.not_eq_true, ← mem_keys, ← hk]
        exact hp.1
      have herase : erase (p :: es) k = erase es k := by simp [erase, hk]
      have hlen : (erase es k).length = es.length := by simpa [hnone] using hrest
      simp [herase, find?_cons, hk, hlen]
    · have herase : erase (p :: es) k = p :: erase es k := by simp [erase, hk]
      rw [herase, find?_cons, if_neg hk, List.length_cons, List.length_cons]
      omega

/-- A full list gives up exactly the entry of the least rank. -/
theorem makeRoom_of_full (h : (keys es).Nodup) {bound : Nat} (hb : 0 < bound)
    (hfull : es.length = bound) :
    ∃ v e, find? es v = some e ∧ (∀ j f, find? es j = some f → e.rank ≤ f.rank) ∧
      makeRoom bound es = erase es v ∧ (erase es v).length + 1 = bound := by
  have hne : es ≠ [] := by
    intro heq
    subst heq
    rw [List.length_nil] at hfull
    omega
  obtain ⟨v, hv⟩ := victim?_isSome hne
  have hmem := mem_of_victim? hv
  have hfind : find? es v.1 = some v.2 := find?_of_mem h hmem
  have hlen := length_erase h v.1
  simp only [hfind, Option.isSome_some, if_true] at hlen
  -- one entry less is room enough, so the search stops after the first
  refine ⟨v.1, v.2, hfind, fun j f hf => victim?_rank_le hv _ (mem_of_find? hf), ?_, by omega⟩
  rw [makeRoom_of_victim? hfull.ge hv, makeRoom_of_lt (by omega)]

end Entries

variable {c : Cache} {k : Key} {now : Instant} {r : Reading} {n : ℕ}

theorem size_invalidate (h : (Entries.keys c.entries).Nodup) :
    (c.invalidate k).size + (if c.contains k then 1 else 0) = c.size :=
  Entries.length_erase h k

theorem size_put_of_held (h : c.contains k) : (c.put now k r).size = c.size := by
  have hk : (Entries.find? c.entries k).isSome = true := h
  by_cases hz : c.policy.maxEntries = some 0
  · rw [put_of_no_room hz]
  · simp [put, size, hz, hk, Entries.length_replace]

theorem size_get_le (hkeys : (Entries.keys c.entries).Nodup) (now : Instant) (k : Key) :
    (c.get now k).2.size ≤ c.size := by
  cases hk : c.item? k with
  | none =>
    rw [get_of_absent hk]
  | some e =>
    cases hf : e.isFresh now c.policy.ttl with
    | true =>
      rw [get_of_fresh hk hf]
      exact Entries.length_replace.le
    | false =>
      have hsize := size_invalidate (k := k) hkeys
      rw [get_of_expired hk hf]
      exact (Nat.le_add_right _ _).trans hsize.le

/-- A new key for which there is room is added to the others. -/
theorem put_of_room (hk : c.contains k = false)
    (hroom : ∀ b, c.policy.maxEntries = some b → c.size < b.toNat) :
    (c.put now k r).entries = (k, .new r now c.nextSequence) :: c.entries := by
  have hk' : (Entries.find? c.entries k).isSome = false := hk
  cases hm : c.policy.maxEntries with
  | none => simp [put, hm, hk']
  | some b =>
    have hb : c.entries.length < b.toNat := hroom b hm
    have hz : b ≠ 0 := by
      intro heq
      subst heq
      simp at hb
    simp [put, hm, hz, hk', Entries.makeRoom_of_lt hb]

/-- A new key in a full cache displaces the entry of the least rank. -/
theorem put_of_full (now : Instant) (r : Reading) (hkeys : (Entries.keys c.entries).Nodup)
    (hk : c.contains k = false) {b : UInt64} (hm : c.policy.maxEntries = some b) (hz : b ≠ 0)
    (hfull : c.size = b.toNat) :
    ∃ v e, c.item? v = some e ∧ (∀ j f, c.item? j = some f → e.rank ≤ f.rank) ∧
      (c.put now k r).entries = (k, .new r now c.nextSequence) :: Entries.erase c.entries v ∧
      (c.put now k r).size = b.toNat := by
  have hk' : (Entries.find? c.entries k).isSome = false := hk
  have hpos : 0 < b.toNat := Nat.pos_of_ne_zero fun h => hz (UInt64.toNat_inj.1 h)
  obtain ⟨v, e, hv, hle, hroom, hlen⟩ := Entries.makeRoom_of_full hkeys hpos hfull
  have hput : (c.put now k r).entries =
      (k, .new r now c.nextSequence) :: Entries.erase c.entries v := by
    simp [put, hm, hz, hk', hroom]
  exact ⟨v, e, hv, hle, hput, by rw [size, hput, List.length_cons, hlen]⟩

theorem nextSequence_put (hz : c.policy.maxEntries ≠ some 0) :
    (c.put now k r).nextSequence = c.nextSequence + 1 := by
  unfold put
  rw [if_neg hz]
  dsimp only
  split <;> rfl

structure Tidy (c : Cache) : Prop where
  keys : (Entries.keys c.entries).Nodup
  bounded : ∀ b, c.policy.maxEntries = some b → c.size ≤ b.toNat

theorem tidy_new (policy : Policy) : Tidy (new policy) := ⟨List.nodup_nil, fun _ _ => Nat.zero_le _⟩

/-- Operations that store nothing leave no more entries than there were. -/
theorem Tidy.of_le {c' : Cache} (h : Tidy c) (hkeys : (Entries.keys c'.entries).Nodup)
    (hpolicy : c'.policy = c.policy) (hsize : c'.size ≤ c.size) : Tidy c' :=
  ⟨hkeys, fun b hb => hsize.trans (h.bounded b (hpolicy ▸ hb))⟩

theorem Tidy.invalidate (h : Tidy c) (k : Key) : Tidy (c.invalidate k) := by
  refine h.of_le (Entries.keys_erase_nodup h.keys k) rfl ?_
  have := size_invalidate (k := k) h.keys
  omega

theorem Tidy.clear (h : Tidy c) : Tidy c.clear := h.of_le List.nodup_nil rfl (Nat.zero_le _)

theorem keys_get_nodup (h : (Entries.keys c.entries).Nodup) (now : Instant) (k : Key) :
    (Entries.keys (c.get now k).2.entries).Nodup := by
  cases hk : c.item? k with
  | none => rwa [get_of_absent hk]
  | some e =>
    cases hf : e.isFresh now c.policy.ttl with
    | false =>
      rw [get_of_expired hk hf]
      exact Entries.keys_erase_nodup h k
    | true => rwa [get_of_fresh hk hf, Entries.keys_replace]

theorem Tidy.get (h : Tidy c) (now : Instant) (k : Key) : Tidy (c.get now k).2 :=
  h.of_le (keys_get_nodup h.keys now k) policy_get (size_get_le h.keys now k)

/-- A key is held already, or there is room for it, or the cache is full. -/
theorem put_cases (h : Tidy c) (hz : c.policy.maxEntries ≠ some 0) (k : Key) :
    c.contains k = true ∨
    (c.contains k = false ∧ ∀ b, c.policy.maxEntries = some b → c.size < b.toNat) ∨
    (c.contains k = false ∧ ∃ b, c.policy.maxEntries = some b ∧ b ≠ 0 ∧ c.size = b.toNat) := by
  cases hk : c.contains k with
  | true => exact Or.inl rfl
  | false =>
    refine Or.inr ?_
    cases hm : c.policy.maxEntries with
    | none => exact Or.inl ⟨rfl, fun b hb => by cases hb⟩
    | some b =>
      rcases (h.bounded b hm).lt_or_eq with hlt | heq
      · refine Or.inl ⟨rfl, fun b' hb' => ?_⟩
        cases hb'
        exact hlt
      · exact Or.inr ⟨rfl, b, rfl, fun hb => hz (hb ▸ hm), heq⟩

theorem size_put_of_room (hk : c.contains k = false)
    (hroom : ∀ b, c.policy.maxEntries = some b → c.size < b.toNat) :
    (c.put now k r).size = c.size + 1 := by
  rw [size, put_of_room hk hroom, List.length_cons, size]

theorem le_size_put (h : Tidy c) (hz : c.policy.maxEntries ≠ some 0) (now : Instant) (k : Key)
    (r : Reading) : c.size ≤ (c.put now k r).size := by
  rcases put_cases h hz k with hk | ⟨hk, hroom⟩ | ⟨hk, b, hm, hb, hfull⟩
  · exact (size_put_of_held hk).ge
  · rw [size_put_of_room hk hroom]
    exact Nat.le_succ _
  · obtain ⟨_, _, _, _, _, hsize⟩ := put_of_full now r h.keys hk hm hb hfull
    exact (hfull.trans hsize.symm).le

theorem keys_put_nodup (h : Tidy c) (hz : c.policy.maxEntries ≠ some 0) (now : Instant)
    (k : Key) (r : Reading) : (Entries.keys (c.put now k r).entries).Nodup := by
  have hnew : c.contains k = false → k ∉ Entries.keys c.entries := fun hk hmem => by
    rw [contains, Entries.mem_keys.1 hmem] at hk
    cases hk
  rcases put_cases h hz k with hk | ⟨hk, hroom⟩ | ⟨hk, b, hm, hb, hfull⟩
  · have hk' : (Entries.find? c.entries k).isSome = true := hk
    have hentries : (c.put now k r).entries =
        Entries.replace c.entries k (.new r now c.nextSequence) := by simp [put, hz, hk']
    rw [hentries, Entries.keys_replace]
    exact h.keys
  · rw [put_of_room hk hroom]
    exact List.nodup_cons.2 ⟨hnew hk, h.keys⟩
  · obtain ⟨v, _, _, _, hentries, _⟩ := put_of_full now r h.keys hk hm hb hfull
    rw [hentries]
    -- one key more and one less, and the new one was not there
    refine List.nodup_cons.2 ⟨fun hmem => hnew hk ?_, Entries.keys_erase_nodup h.keys v⟩
    exact (List.filter_sublist.map Prod.fst).subset hmem

/-- Storing does not lead beyond the bound. -/
theorem size_put_le (h : Tidy c) (hz : c.policy.maxEntries ≠ some 0) (now : Instant)
    (k : Key) (r : Reading) {b : UInt64} (hb : c.policy.maxEntries = some b) :
    (c.put now k r).size ≤ b.toNat := by
  rcases put_cases h hz k with hk | ⟨hk, hroom⟩ | ⟨hk, b', hm, hb', hfull⟩
  · rw [size_put_of_held hk]
    exact h.bounded b hb
  · rw [size_put_of_room hk hroom]
    exact hroom b hb
  · obtain ⟨_, _, _, _, _, hsize⟩ := put_of_full now r h.keys hk hm hb' hfull
    cases hb.symm.trans hm
    exact hsize.le

/-- A cache is tidy after storing too, also one that may hold nothing. -/
theorem Tidy.put (h : Tidy c) (now : Instant) (k : Key) (r : Reading) : Tidy (c.put now k r) := by
  by_cases hz : c.policy.maxEntries = some 0
  · rwa [put_of_no_room hz]
  · refine ⟨keys_put_nodup h hz now k r, fun b hb => ?_⟩
    rw [policy_put] at hb
    exact size_put_le h hz now k r hb

/-- A tidy cache that has stored `n` readings: each entry has a number of its own below `n`. -/
structure Numbered (c : Cache) (n : ℕ) : Prop extends Tidy c where
  next : c.nextSequence.toNat = n
  below : ∀ k e, c.item? k = some e → e.sequence.toNat < n
  apart : ∀ k j e f, c.item? k = some e → c.item? j = some f → e.sequence = f.sequence → k = j

theorem numbered_new (policy : Policy) : Numbered (new policy) 0 where
  toTidy := tidy_new policy
  next := rfl
  below k e h := by cases h
  apart k j e f h := by cases h

/-- Operations that number nothing keep the numbering if every entry they leave was there before. -/
theorem Numbered.of_sub {c' : Cache} (h : Numbered c n) (htidy : Tidy c')
    (hnext : c'.nextSequence = c.nextSequence)
    (hsub : ∀ k e, c'.item? k = some e → ∃ f, c.item? k = some f ∧ f.sequence = e.sequence) :
    Numbered c' n where
  toTidy := htidy
  next := hnext ▸ h.next
  below k e he := by
    obtain ⟨f, hf, hseq⟩ := hsub k e he
    exact hseq ▸ h.below k f hf
  apart k j e f he hf heq := by
    obtain ⟨e', he', hseq⟩ := hsub k e he
    obtain ⟨f', hf', hseq'⟩ := hsub j f hf
    exact h.apart k j e' f' he' hf' (hseq.trans (heq.trans hseq'.symm))

theorem numbered_invalidate (h : Numbered c n) (k : Key) : Numbered (c.invalidate k) n := by
  refine h.of_sub (h.toTidy.invalidate k) rfl fun j e he => ?_
  rw [item?_invalidate] at he
  split at he
  · cases he
  · exact ⟨e, he, rfl⟩

theorem numbered_clear (h : Numbered c n) : Numbered c.clear n :=
  h.of_sub h.toTidy.clear rfl fun k e he => by cases he

theorem nextSequence_get : (c.get now k).2.nextSequence = c.nextSequence := by
  unfold get
  split
  · rfl
  · split <;> rfl

theorem numbered_get (h : Numbered c n) (now : Instant) (k : Key) :
    Numbered (c.get now k).2 n := by
  refine h.of_sub (h.toTidy.get now k) nextSequence_get fun j f hj => ?_
  rw [item?_get] at hj
  split at hj
  · rename_i hjk
    subst hjk
    obtain ⟨e, he, rfl⟩ := Option.map_eq_some_iff.1 hj
    exact ⟨e, (Option.filter_eq_some_iff.1 he).1, rfl⟩
  · exact ⟨f, hj, rfl⟩

/-- What is stored gets the next number, while the word for it does not come round. -/
theorem numbered_put (h : Numbered c n) (hz : c.policy.maxEntries ≠ some 0)
    (hn : n + 1 < UInt64.size) (now : Instant) (k : Key) (r : Reading) :
    Numbered (c.put now k r) (n + 1) := by
  have hself : (c.put now k r).item? k = some (.new r now c.nextSequence) := item?_put_self hz
  -- under other keys there is only what was there before
  have hother (j : Key) (e : Entry) (hj : j ≠ k) (he : (c.put now k r).item? j = some e) :
      e.sequence.toNat < n := h.below j e (item?_of_put hj he)
  refine ⟨h.toTidy.put now k r, ?_, fun j e he => ?_, ?_⟩
  · rw [nextSequence_put hz, UInt64.toNat_add, h.next]
    exact Nat.mod_eq_of_lt hn
  · by_cases hj : j = k
    · subst hj
      cases hself.symm.trans he
      rw [Entry.new, h.next]
      exact Nat.lt_succ_self n
    · exact (hother j e hj he).trans (Nat.lt_succ_self n)
  · -- the new number is above all others, which keep theirs
    have hfresh (j : Key) (e f : Entry) (hj : j ≠ k) (he : (c.put now k r).item? k = some e)
        (hf : (c.put now k r).item? j = some f) : e.sequence ≠ f.sequence := by
      cases hself.symm.trans he
      intro heq
      have hlt := hother j f hj hf
      rw [← heq, Entry.new, h.next] at hlt
      exact Nat.lt_irrefl n hlt
    intro i j e f he hf heq
    by_cases hi : i = k <;> by_cases hj : j = k
    · exact hi.trans hj.symm
    · exact absurd heq (hfresh j e f hj (hi ▸ he) hf)
    · exact absurd heq.symm (hfresh i f e hi (hj ▸ hf) he)
    · exact h.apart i j e f (item?_of_put hi he) (item?_of_put hj hf) heq

end GpuTelemetry.Cache
