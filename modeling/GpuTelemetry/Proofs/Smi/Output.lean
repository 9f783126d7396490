import GpuTelemetry.Smi.Command
import GpuTelemetry.Proofs.Text.Line

namespace GpuTelemetry.Smi

structure Takes (n : ℕ) (s chunk rest : Text) : Prop where
  splits : s = chunk ++ rest
  length_le : chunk.length ≤ n
  /-- A line feed can only be the last byte. -/
  oneLine : 10 ∉ chunk.dropLast
  stops : chunk.getLast? = some 10 ∨ chunk.length = n ∨ rest = []

/-- Reads a text to its end and adds the chunks to what was gathered before. A chunk is put into the
buffer with a NUL behind it; behind that still stands what the buffer held before. -/
inductive Gathers : Text → Text → Text → Prop where
  | stop (gathered : Text) : Gathers [] gathered gathered
  | turn {s chunk rest gathered whole : Text} (stale : Text) (hs : s ≠ [])
      (h : Takes chunkSize s chunk rest)
      (hrest : Gathers rest (gathered ++ Text.beforeNul (chunk ++ 0 :: stale)) whole) :
      Gathers s gathered whole

variable {n : ℕ} {b : UInt8} {s chunk rest gathered whole : Text}

/-! ### One read -/

theorem takes_zero : Takes 0 s chunk rest ↔ chunk = [] ∧ rest = s := by
  constructor
  · rintro ⟨hsplits, hlength, -, -⟩
    have hchunk : chunk = [] := List.length_eq_zero_iff.1 (Nat.le_zero.1 hlength)
    rw [hchunk, List.nil_append] at hsplits
    exact ⟨hchunk, hsplits.symm⟩
  · rintro ⟨rfl, rfl⟩
    exact ⟨rfl, le_rfl, by simp, Or.inr (Or.inl rfl)⟩

theorem takes_nil : Takes n [] chunk rest ↔ chunk = [] ∧ rest = [] := by
  constructor
  · intro h
    exact List.append_eq_nil_iff.1 h.splits.symm
  · rintro ⟨rfl, rfl⟩
    exact ⟨rfl, Nat.zero_le n, by simp, Or.inr (Or.inr rfl)⟩

/-- With room for a byte and a byte to read a read takes one. -/
theorem Takes.exists_cons (h : Takes (n + 1) (b :: s) chunk rest) : ∃ more, chunk = b :: more := by
  cases chunk with
  | nil =>
    rcases h.stops with hline | hfull | hend
    · cases hline
    · cases hfull
    · have hsplits := h.splits
      rw [hend] at hsplits
      cases hsplits
  | cons c more =>
    obtain ⟨rfl, -⟩ := List.cons.inj h.splits
    exact ⟨more, rfl⟩

theorem takes_line : Takes (n + 1) (10 :: s) chunk rest ↔ chunk = [10] ∧ rest = s := by
  constructor
  · intro h
    obtain ⟨more, rfl⟩ := h.exists_cons
    cases more with
    | nil => exact ⟨rfl, (List.cons.inj h.splits).2.symm⟩
    | cons c more => exact absurd List.mem_cons_self h.oneLine
  · rintro ⟨rfl, rfl⟩
    exact ⟨rfl, by simp, by simp, Or.inl rfl⟩

/-- A byte that is no line feed is taken, and the chunk goes on. -/
theorem takes_cons (hb : b ≠ 10) :
    Takes (n + 1) (b :: s) (b :: chunk) rest ↔ Takes n s chunk rest := by
  have hline : 10 ∉ (b :: chunk).dropLast ↔ 10 ∉ chunk.dropLast := by
    cases chunk with
    | nil => simp
    | cons c chunk => simp [Ne.symm hb]
  have hlast : (b :: chunk).getLast? = some 10 ↔ chunk.getLast? = some 10 := by
    cases chunk with
    | nil => simpa using hb
    | cons c chunk => rw [List.getLast?_cons_cons]
  constructor
  · rintro ⟨hsplits, hlength, hone, hstops⟩
    refine ⟨(List.cons.inj hsplits).2, Nat.le_of_succ_le_succ hlength, hline.1 hone, ?_⟩
    rwa [hlast, List.length_cons, Nat.add_right_cancel_iff] at hstops
  · rintro ⟨rfl, hlength, hone, hstops⟩
    refine ⟨rfl, Nat.succ_le_succ hlength, hline.2 hone, ?_⟩
    rwa [hlast, List.length_cons, Nat.add_right_cancel_iff]

/-- There is exactly one way to read. -/
theorem takes_iff : Takes n s chunk rest ↔ takeChunk n s = (chunk, rest) := by
  -- along the recursion of `takeChunk`: no room, no byte, a line feed, any other byte
  fun_induction takeChunk n s generalizing chunk with
  | case1 s => simp only [takes_zero, Prod.mk.injEq, eq_comm]
  | case2 n hn => simp only [takes_nil, Prod.mk.injEq, eq_comm]
  | case3 n s => simp only [takes_line, Prod.mk.injEq, eq_comm]
  | case4 n b s hb taken left htake ih =>
    constructor
    · intro h
      obtain ⟨more, rfl⟩ := h.exists_cons
      have hmore : (taken, left) = (more, rest) := htake.symm.trans (ih.1 ((takes_cons hb).1 h))
      obtain ⟨rfl, rfl⟩ := Prod.mk.inj hmore
      rfl
    · intro h
      obtain ⟨rfl, rfl⟩ := Prod.mk.inj h
      exact (takes_cons hb).2 (ih.2 htake)

/-! ### All of them -/

theorem collected_nil : collected [] = [] := by simp [collected, chunks]

/-- Of a chunk that is read the bytes before its first NUL are kept. -/
theorem collected_of_takes (hs : s ≠ []) (h : Takes chunkSize s chunk rest) :
    collected s = Text.beforeNul chunk ++ collected rest := by
  have hchunks : chunks s = chunk :: chunks rest := by
    rw [chunks, dif_neg hs]
    simp only [takes_iff.1 h]
  rw [collected, hchunks, List.flatMap_cons, collected]

theorem beforeNul_append_nul (s t : Text) : Text.beforeNul (s ++ 0 :: t) = Text.beforeNul s := by
  induction s with
  | nil => rfl
  | cons b s ih =>
    by_cases hb : b = 0
    · simp [Text.beforeNul, hb]
    · simpa [Text.beforeNul, hb] using ih

/-- Reading chunk by chunk ends, and in one way only. -/
theorem gathers_iff : Gathers s gathered whole ↔ whole = gathered ++ collected s := by
  constructor
  · intro h
    induction h with
    | stop gathered => rw [collected_nil, List.append_nil]
    | turn stale hs h _ ih =>
      rw [ih, beforeNul_append_nul, List.append_assoc, collected_of_takes hs h]
  · rintro rfl
    -- the induction is that of the chunks: each turn reads one
    induction s using chunks.induct generalizing gathered with
    | case1 =>
      rw [collected_nil, List.append_nil]
      exact .stop gathered
    | case2 s hs _ ih =>
      have htakes : Takes chunkSize s (takeChunk chunkSize s).1 (takeChunk chunkSize s).2 :=
        takes_iff.2 rfl
      refine .turn [] hs htakes ?_
      rw [beforeNul_append_nul, collected_of_takes hs htakes, ← List.append_assoc]
      exact ih

/-- Without a NUL nothing is lost, wherever the chunks end. -/
theorem collected_eq_self (h : 0 ∉ s) : collected s = s := by
  induction s using chunks.induct with
  | case1 => exact collected_nil
  | case2 s hs _ ih =>
    have htakes : Takes chunkSize s (takeChunk chunkSize s).1 (takeChunk chunkSize s).2 :=
      takes_iff.2 rfl
    -- a NUL in the chunk or in the rest would be one in the text
    have hparts := h
    rw [htakes.splits, List.mem_append, not_or] at hparts
    rw [collected_of_takes hs htakes, Text.beforeNul_eq_self hparts.1, ih hparts.2]
    exact htakes.splits.symm

/-! ### What is made of it -/

/-- A source that finds no device leaves the list as it was. -/
theorem onto_ofReadings (listed found : List Reading) : (Detection.ofReadings found).onto listed =
    if found = [] then ⟨listed, .returned .detectionFailed⟩ else ⟨listed ++ found, .returned .ok⟩ := by
  cases found with
  | nil => simp [Detection.ofReadings, Detection.onto]
  | cons r found => rfl

/-- **The output of a command is read whole.** If the command prints no NUL, every way to gather its output
comes to exactly what it printed, however long the lines are and whether or not the last one ends in a line
feed. A command that exits with zero has that output and any other one has none; and what is detected comes
behind the devices listed before, which stay alone when there is no output or no device in it. -/
theorem output_read_whole {e : Execution} (h : 0 ∉ e.printed) :
    (∀ whole, Gathers e.printed [] whole ↔ whole = e.printed) ∧
    e.output? = (if e.ending = .exited 0 then some e.printed else none) ∧
    ∀ listed, (detect e).onto listed =
      if e.ending = .exited 0 ∧ parseTable e.printed ≠ [] then
        ⟨listed ++ parseTable e.printed, .returned .ok⟩
      else ⟨listed, .returned .detectionFailed⟩ := by
  have hwhole := collected_eq_self h
  have houtput : e.output? = if e.ending = .exited 0 then some e.printed else none := by
    rw [Execution.output?, hwhole]
  refine ⟨fun whole => ?_, houtput, fun listed => ?_⟩
  · rw [gathers_iff, hwhole, List.nil_append]
  rw [detect, onto_ofReadings, readings, houtput]
  by_cases hend : e.ending = .exited 0
  · by_cases htable : parseTable e.printed = []
    · simp [hend, htable]
    · simp [hend, htable]
  · simp [hend]

def longLine : Text := List.replicate 505 65 ++ List.replicate 10 44

/-- A line of 515 bytes without a line feed is read in two chunks. -/
theorem output_read_whole_of_long : 0 ∉ longLine ∧ chunkSize < longLine.length ∧
    (⟨longLine, .exited 0⟩ : Execution).output? = some longLine ∧
    ((detect ⟨longLine, .exited 0⟩).onto []).outcome = .returned .ok := by
  have hnul : 0 ∉ longLine := by decide +kernel
  obtain ⟨-, houtput, hdetect⟩ := output_read_whole (e := ⟨longLine, .exited 0⟩) hnul
  have hdevices : parseTable longLine ≠ [] := by
    have hsome : (parseTable longLine).isEmpty = false := by decide +kernel
    exact fun hnil => by simp [hnil] at hsome
  refine ⟨hnul, by decide +kernel, houtput, ?_⟩
  rw [hdetect, if_pos ⟨rfl, hdevices⟩]

end GpuTelemetry.Smi
