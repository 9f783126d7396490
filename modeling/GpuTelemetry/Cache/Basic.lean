import GpuTelemetry.Cache.Policy
/-!
A cache of snapshots with a lifetime and a bound on their number. An expired entry counts as absent
and is removed when it is asked for. A new key in a full cache displaces the entry that comes first
in the order of giving up; a bound of zero stores nothing.
-/

namespace GpuTelemetry

/-- Entries are held in no particular order, one for a key. -/
structure Cache where
  policy : Cache.Policy
  entries : List (Cache.Key × Cache.Entry) := []
  nextSequence : UInt64 := 0

namespace Cache

abbrev Entries := List (Key × Entry)

def Entries.find? (es : Entries) (k : Key) : Option Entry := (List.find? (·.1 == k) es).map (·.2)

def Entries.erase (es : Entries) (k : Key) : Entries := es.filter (·.1 != k)

/-- Changes the entry of `k` in place. -/
def Entries.replace (es : Entries) (k : Key) (e : Entry) : Entries :=
  es.map fun p => if p.1 == k then (k, e) else p

/-- The entry that is given up first. -/
def Entries.victim? : Entries → Option (Key × Entry)
  | [] => none
  | p :: ps => some (ps.foldl (fun best q => if q.2.before best.2 then q else best) p)

theorem foldl_pick_mem {α : Type} (pick : α → α → Bool) (xs : List α) (a : α) :
    xs.foldl (fun best x => if pick x best then x else best) a ∈ a :: xs := by
  induction xs generalizing a with
  | nil => simp
  | cons x xs ih =>
    simp only [List.foldl_cons]
    split
    · exact List.mem_cons_of_mem _ (ih x)
    · rcases List.mem_cons.1 (ih a) with h | h
      · exact List.mem_cons.2 (Or.inl h)
      · exact List.mem_cons_of_mem _ (List.mem_cons_of_mem _ h)

theorem Entries.mem_of_victim? {es : Entries} {v : Key × Entry} (h : es.victim? = some v) :
    v ∈ es := by
  cases es with
  | nil => simp [Entries.victim?] at h
  | cons p ps =>
    simp only [Entries.victim?, Option.some.injEq] at h
    exact h ▸ foldl_pick_mem (fun a b : Key × Entry => a.2.before b.2) ps p

theorem Entries.length_erase_lt {es : Entries} {v : Key × Entry} (h : v ∈ es) :
    (es.erase v.1).length < es.length := by
  apply List.length_filter_lt_length_iff_exists.2
  exact ⟨v, h, by simp⟩

/-- Gives entries up until fewer than `bound` are left. -/
def Entries.makeRoom (bound : Nat) (es : Entries) : Entries :=
  if bound ≤ es.length then
    match h : es.victim? with
    | none => es
    | some v =>
      have := Entries.length_erase_lt (Entries.mem_of_victim? h)
      makeRoom bound (es.erase v.1)
  else es
termination_by es.length

/-- An empty cache, its policy bounded. -/
def new (policy : Policy) : Cache := { policy := policy.bounded }

/-- A fresh snapshot, counted as a hit; an expired entry is removed. -/
def get (c : Cache) (now : Instant) (k : Key) : Option Reading × Cache :=
  match Entries.find? c.entries k with
  | none => (none, c)
  | some e =>
    if e.isFresh now c.policy.ttl then
      (some e.snapshot, { c with entries := Entries.replace c.entries k (e.touch now) })
    else (none, { c with entries := Entries.erase c.entries k })

/-- Stores a snapshot under `k`. Every call takes the next number, replacing ones too. -/
def put (c : Cache) (now : Instant) (k : Key) (r : Reading) : Cache :=
  if c.policy.maxEntries = some 0 then c
  else
    let e := Entry.new r now c.nextSequence
    let next := c.nextSequence + 1
    if (Entries.find? c.entries k).isSome then
      { c with entries := Entries.replace c.entries k e, nextSequence := next }
    else
      let room := match c.policy.maxEntries with
        | some n => Entries.makeRoom n.toNat c.entries
        | none => c.entries
      { c with entries := (k, e) :: room, nextSequence := next }

/-- Stores a snapshot and hands it out again, also where there is no room for any. -/
def store (c : Cache) (now : Instant) (k : Key) (r : Reading) : Reading × Cache :=
  (r, c.put now k r)

def invalidate (c : Cache) (k : Key) : Cache := { c with entries := Entries.erase c.entries k }

def clear (c : Cache) : Cache := { c with entries := [] }

/-- Entries held, expired ones included. -/
def size (c : Cache) : Nat := c.entries.length

/-- Whether an entry is held under `k`, fresh or not. -/
def contains (c : Cache) (k : Key) : Bool := (Entries.find? c.entries k).isSome

/-- Totals over the entries held. -/
structure Stats where
  totalEntries : Nat
  totalAccesses : UInt64
  oldestEntryAge : Option Millis
deriving DecidableEq, Repr

def older (oldest : Option Millis) (age : Millis) : Option Millis :=
  match oldest with
  | none => some age
  | some o => if age > o then some age else some o

def stats (c : Cache) (now : Instant) : Stats :=
  { totalEntries := c.entries.length
    totalAccesses := c.entries.foldl (fun n p => n + p.2.accessCount) 0
    oldestEntryAge := c.entries.foldl (fun o p => older o (p.2.age now)) none }

end Cache

end GpuTelemetry
