import GpuTelemetry.Os.Release
import GpuTelemetry.Proofs.Latest
import GpuTelemetry.Proofs.Text.Line

namespace GpuTelemetry.Os

open Text (Stripped isBlank stripped_trim trim_of_stripped)

inductive ReleaseKey where
  | id | prettyName | name | version | codename

namespace ReleaseKey

def text : ReleaseKey → Text
  | .id => utf8 "ID"
  | .prettyName => utf8 "PRETTY_NAME"
  | .name => utf8 "NAME"
  | .version => utf8 "VERSION_ID"
  | .codename => utf8 "VERSION_CODENAME"

end ReleaseKey

def Quoted (raw value : Text) : Prop := ∃ q : UInt8, (q = 34 ∨ q = 39) ∧ raw = q :: (value ++ [q])

def Unquoted (raw value : Text) : Prop := Quoted raw value ∨ (∀ inner, ¬ Quoted raw inner) ∧ raw = value

def Assigns (line key value : Text) : Prop :=
  ∃ raw, Stripped line (key ++ 61 :: raw) ∧ key.head? ≠ some 35 ∧ 61 ∉ key ∧ Unquoted raw value

/-- A line that tells nothing. -/
inductive Idle (line : Text) : Prop where
  | blank (h : ∀ b ∈ line, isBlank b = true)
  | comment (rest : Text) (h : Stripped line (35 :: rest))
  | noAssignment (h : 61 ∉ line)
  | otherKey (key value : Text) (h : Assigns line key value) (hkey : ∀ k : ReleaseKey, key ≠ k.text)

def LastAssigned (lines : List Text) (key : Text) : Option Text → Prop
  | some value => ∃ before line after, lines = before ++ line :: after ∧ Assigns line key value ∧
      ∀ l ∈ after, ∀ v, ¬ Assigns l key v
  | none => ∀ l ∈ lines, ∀ v, ¬ Assigns l key v

/-- What is filled in, given what the last assignment of each key tells. -/
structure Filled (last : ReleaseKey → Option Text) (os : Identity) (found : Bool) (os' : Identity) :
    Prop where
  found : found = (last .id).isSome
  distribution : os'.distribution = (last .id).elim .unknown .ofId
  id : os'.id = (last .id).getD os.id
  name : os'.name = ((last .prettyName).filter (· ≠ [])).getD ((last .name).getD [])
  version : os'.version = (last .version).getD os.version
  codename : os'.codename = (last .codename).getD os.codename
  architecture : os'.architecture = os.architecture
  bitDepth : os'.bitDepth = os.bitDepth
  kernelRelease : os'.kernelRelease = os.kernelRelease

variable {line key value raw : Text} {lines lines' : List Text} {k : ReleaseKey} {o : Option Text}

/-! ### Lines -/

theorem unquote_of_quoted (h : Quoted raw value) : unquote raw = value := by
  obtain ⟨q, hq, rfl⟩ := h
  rw [unquote, if_pos ⟨hq, List.getLast?_concat⟩, List.dropLast_concat]

theorem unquote_of_not_quoted (h : ∀ inner, ¬ Quoted raw inner) : unquote raw = raw := by
  unfold unquote
  split
  · rename_i q rest
    apply if_neg
    rintro ⟨hq, hlast⟩
    obtain ⟨inner, rfl⟩ := List.getLast?_eq_some_iff.1 hlast
    exact h inner ⟨q, hq, rfl⟩
  · rfl

/-- One level of quotes is taken off, if the two match. -/
theorem unquoted_iff : Unquoted raw value ↔ unquote raw = value := by
  constructor
  · rintro (hquoted | ⟨hnone, rfl⟩)
    · exact unquote_of_quoted hquoted
    · exact unquote_of_not_quoted hnone
  · rintro rfl
    by_cases h : ∃ inner, Quoted raw inner
    · obtain ⟨inner, hinner⟩ := h
      rw [unquote_of_quoted hinner]
      exact Or.inl hinner
    · rw [not_exists] at h
      exact Or.inr ⟨h, (unquote_of_not_quoted h).symm⟩

theorem head?_assignment : (key ++ 61 :: raw).head? = some 35 ↔ key.head? = some 35 := by
  cases key <;> simp

theorem assignment?_of_trim (h : Text.trim line = key ++ 61 :: raw) (hhead : key.head? ≠ some 35)
    (hkey : 61 ∉ key) : assignment? line = some (key, unquote raw) := by
  -- the key ends at the first equals sign
  have hall : ∀ b ∈ key, (b != 61) = true := by
    intro b hb
    rw [bne_iff_ne]
    rintro rfl
    exact hkey hb
  have hstop : ∀ b ∈ (61 :: raw).head?, (b != 61) = false := by simp
  have hnot : ¬ ((key ++ 61 :: raw).isEmpty || (key ++ 61 :: raw).head? == some 35 ||
      !(key ++ 61 :: raw).contains 61) = true := by
    have hstart : (key ++ 61 :: raw).head? ≠ some 35 := fun hstart => hhead (head?_assignment.1 hstart)
    simp only [Bool.or_eq_true, beq_iff_eq, hstart, or_false]
    simp
  unfold assignment?
  simp only [h, if_neg hnot, Text.takeWhile_append_eq hall hstop, Text.dropWhile_append_eq hall hstop]
  rfl

theorem assignment?_of_comment (h : (Text.trim line).head? = some 35) : assignment? line = none := by
  simp [assignment?, h]

theorem assignment?_of_not_mem (h : 61 ∉ Text.trim line) : assignment? line = none := by
  simp [assignment?, h]

/-- A line is read as an assignment exactly if it is one. -/
theorem assignment?_eq_some : assignment? line = some (key, value) ↔ Assigns line key value := by
  constructor
  · intro h
    have hstart : (Text.trim line).head? ≠ some 35 := by
      intro hcomment
      rw [assignment?_of_comment hcomment] at h
      cases h
    have hmem : 61 ∈ Text.trim line := by
      by_contra hnot
      rw [assignment?_of_not_mem hnot] at h
      cases h
    obtain ⟨key', raw, hline, hkey⟩ := List.eq_append_cons_of_mem hmem
    have hhead : key'.head? ≠ some 35 := by rwa [hline, ne_eq, head?_assignment] at hstart
    rw [assignment?_of_trim hline hhead hkey] at h
    obtain ⟨rfl, rfl⟩ := Prod.mk.inj (Option.some.inj h)
    exact ⟨raw, hline ▸ stripped_trim line, hhead, hkey, unquoted_iff.2 rfl⟩
  · rintro ⟨raw, hline, hhead, hkey, hvalue⟩
    rw [assignment?_of_trim (trim_of_stripped hline) hhead hkey, unquoted_iff.1 hvalue]

theorem Assigns.mem (h : Assigns line key value) : 61 ∈ line := by
  obtain ⟨raw, hline, -⟩ := h
  obtain ⟨left, right, rfl, -⟩ := hline.blanks
  simp

/-- A line assigns one key at most. -/
theorem Assigns.key_unique {key' value' : Text} (h : Assigns line key value)
    (h' : Assigns line key' value') : key = key' := by
  have hpair := (assignment?_eq_some.2 h).symm.trans (assignment?_eq_some.2 h')
  exact (Prod.mk.inj (Option.some.inj hpair)).1

def valueOf? (k : ReleaseKey) (line : Text) : Option Text :=
  (assignment? line).bind fun kv => if kv.1 = k.text then some kv.2 else none

theorem valueOf?_eq_some : valueOf? k line = some value ↔ Assigns line k.text value := by
  rw [← assignment?_eq_some, valueOf?]
  cases assignment? line <;> simp [Prod.ext_iff]

theorem valueOf?_eq_none : valueOf? k line = none ↔ ∀ v, ¬ Assigns line k.text v := by
  rw [Option.eq_none_iff_forall_ne_some]
  simp only [ne_eq, valueOf?_eq_some]

theorem Idle.valueOf?_eq_none (h : Idle line) (k : ReleaseKey) : valueOf? k line = none := by
  rw [Os.valueOf?_eq_none]
  intro v hassigns
  cases h with
  | blank hblank => simpa [isBlank] using hblank 61 hassigns.mem
  | comment rest hcomment =>
    obtain ⟨raw, hline, hhead, -⟩ := hassigns
    have hsame : k.text ++ 61 :: raw = 35 :: rest :=
      (trim_of_stripped hline).symm.trans (trim_of_stripped hcomment)
    apply hhead
    rw [← head?_assignment, hsame]
    rfl
  | noAssignment hnot => exact hnot hassigns.mem
  | otherKey key value hother hkey => exact hkey k (hother.key_unique hassigns)

def keyOf? (line : Text) : Option Text := (assignment? line).map Prod.fst

theorem keyOf?_eq_some : keyOf? line = some key ↔ ∃ value, Assigns line key value := by
  simp [keyOf?, ← assignment?_eq_some]

theorem valueOf?_of_keyOf?_ne (h : keyOf? line ≠ some k.text) : valueOf? k line = none := by
  rw [valueOf?_eq_none]
  intro v hassigns
  exact h (keyOf?_eq_some.2 ⟨v, hassigns⟩)

/-- The last assignment of a key is the last value that the lines tell of it. -/
theorem lastAssigned_iff : LastAssigned lines k.text o ↔ latest? (valueOf? k) lines = o := by
  cases o with
  | none => simp only [LastAssigned, latest?_eq_none, valueOf?_eq_none]
  | some v => simp only [LastAssigned, latest?_eq_some, valueOf?_eq_none, valueOf?_eq_some]

/-! ### Assignments -/

namespace Assignments

def read (a : Assignments) : ReleaseKey → Option Text
  | .id => a.id
  | .prettyName => some a.prettyName
  | .name => some a.plainName
  | .version => a.version
  | .codename => a.codename

theorem eq_of_read {a b : Assignments} (h : ∀ k, a.read k = b.read k) : a = b := by
  rw [Assignments.mk.injEq]
  exact ⟨h .id, Option.some.inj (h .prettyName), Option.some.inj (h .name), h .version, h .codename⟩

theorem read_assign (a : Assignments) (key value : Text) (k : ReleaseKey) :
    (a.assign key value).read k = (if key = k.text then some value else none).or (a.read k) := by
  -- one of the keys is compared with all of them; any other key is none of them
  by_cases h : ∃ k' : ReleaseKey, key = k'.text
  · obtain ⟨k', rfl⟩ := h
    cases k' <;> cases k <;> rfl
  · rw [not_exists] at h
    have hsame : a.assign key value = a := by
      have hid : key ≠ utf8 "ID" := h .id
      have hpretty : key ≠ utf8 "PRETTY_NAME" := h .prettyName
      have hname : key ≠ utf8 "NAME" := h .name
      have hversion : key ≠ utf8 "VERSION_ID" := h .version
      have hcodename : key ≠ utf8 "VERSION_CODENAME" := h .codename
      rw [assign, if_neg hid, if_neg hpretty, if_neg hname, if_neg hversion, if_neg hcodename]
    rw [hsame, if_neg (h k), Option.none_or]

/-- What is kept of a file is the last value of each key. -/
theorem read_ofText (text : Text) (k : ReleaseKey) : (ofText text).read k =
    (latest? (valueOf? k) (Text.lines text)).or (({} : Assignments).read k) := by
  have hkept := foldl_eq_latest? (fun a : Assignments => a.read k)
    (fun a kv => read_assign a kv.1 kv.2 k) {} ((Text.lines text).filterMap assignment?)
  rwa [latest?_filterMap] at hkept

end Assignments

/-! ### What is filled in -/

/-- A value kept in place of a text that was empty at first. -/
theorem eq_getD_of_some {value : Text} (h : some value = o.or (some [])) : value = o.getD [] := by
  cases o <;> exact Option.some.inj h

/-- What is filled in, given these values. -/
theorem filled_readRelease (text : Text) (os : Identity) :
    Filled (fun k => latest? (valueOf? k) (Text.lines text)) os (readRelease text os).1
      (readRelease text os).2 := by
  have hread := Assignments.read_ofText text
  have hid := (hread .id).trans Option.or_none
  have hversion := (hread .version).trans Option.or_none
  have hcodename := (hread .codename).trans Option.or_none
  have hpretty := eq_getD_of_some (hread .prettyName)
  have hname := eq_getD_of_some (hread .name)
  exact {
    found := congrArg Option.isSome hid
    distribution := by
      simp only [readRelease, ← hid, Assignments.read]
      -- the name of the distribution follows from the id
      cases (Assignments.ofText text).id <;> rfl
    id := congrArg (Option.getD · os.id) hid
    name := by
      simp only [readRelease, hpretty, hname]
      cases latest? (valueOf? .prettyName) (Text.lines text) with
      | none => rfl
      | some pretty => cases pretty <;> rfl
    version := congrArg (Option.getD · os.version) hversion
    codename := congrArg (Option.getD · os.codename) hcodename
    architecture := rfl
    bitDepth := rfl
    kernelRelease := rfl }

/-- Files that tell the same last values are read alike. -/
theorem readRelease_congr {text text' : Text}
    (h : ∀ k, latest? (valueOf? k) (Text.lines text') = latest? (valueOf? k) (Text.lines text))
    (os : Identity) : readRelease text' os = readRelease text os := by
  have hsame : Assignments.ofText text' = Assignments.ofText text := by
    apply Assignments.eq_of_read
    intro k
    rw [Assignments.read_ofText, Assignments.read_ofText, h k]
  rw [readRelease, readRelease, hsame]

/-- **Only last assignments count.** Of each key with a meaning the value of its last assignment is filled
in; without one the identifier, the version and the codename stay as they were. The name is that of
`PRETTY_NAME` if it is not empty, otherwise that of `NAME` or none. The identifier tells the distribution, and
an answer is found exactly if it is assigned. So texts are read alike if the last assignments are alike. A
line may be put in or taken out anywhere if it is idle or if a later one assigns its key, and lines that
assign different keys may change places. -/
theorem readRelease_last_assignments (text : Text) (os : Identity) :
    (∃ last : ReleaseKey → Option Text, (∀ k, LastAssigned (Text.lines text) k.text (last k)) ∧
      Filled last os (readRelease text os).1 (readRelease text os).2) ∧
    (∀ text', (∀ (k : ReleaseKey) o, LastAssigned (Text.lines text) k.text o →
        LastAssigned (Text.lines text') k.text o) → readRelease text' os = readRelease text os) ∧
    (∀ text' before line after, Text.lines text = before ++ line :: after →
      Text.lines text' = before ++ after →
      (Idle line ∨ ∃ key v, Assigns line key v ∧ ∃ l ∈ after, ∃ v', Assigns l key v') →
      readRelease text' os = readRelease text os) ∧
    ∀ text', Regrouped keyOf? (Text.lines text) (Text.lines text') →
      readRelease text' os = readRelease text os := by
  refine ⟨⟨_, fun k => lastAssigned_iff.2 rfl, filled_readRelease text os⟩, ?_, ?_, ?_⟩
  · intro text' h
    apply readRelease_congr
    intro k
    exact lastAssigned_iff.1 (h k _ (lastAssigned_iff.2 rfl))
  · intro text' before line after hlines hlines' hline
    apply readRelease_congr
    intro k
    rw [hlines, hlines']
    apply (latest?_skip _).symm
    -- the line tells nothing for the key, or a later one does
    rcases hline with hidle | ⟨key, v, hassigns, l, hl, v', hlater⟩
    · exact Or.inl (hidle.valueOf?_eq_none k)
    · rcases eq_or_ne key k.text with rfl | hkey
      · refine Or.inr ⟨l, hl, ?_⟩
        rw [valueOf?_eq_some.2 hlater]
        exact Option.some_ne_none v'
      · refine Or.inl (valueOf?_eq_none.2 fun v'' hassigns' => ?_)
        exact hkey (hassigns.key_unique hassigns')
  · intro text' h
    apply readRelease_congr
    intro k
    exact (h.latest?_eq fun line hkey => valueOf?_of_keyOf?_ne hkey).symm

def replacedId : Text := utf8 "#\nID=old\nNAME='A B'\nID=new\n"

/-- A comment, a name, and an identifier that is replaced. -/
theorem readRelease_last_assignments_of_replaced :
    (readRelease replacedId { version := utf8 "1" }).2 =
      { distribution := .linux, id := utf8 "new", name := utf8 "A B", version := utf8 "1" } ∧
    (∀ (k : ReleaseKey) o, LastAssigned (Text.lines replacedId) k.text o →
      LastAssigned (Text.lines (utf8 " NAME=A B\nID=new")) k.text o) ∧
    readRelease (utf8 " NAME=A B\nID=new") { version := utf8 "1" } =
      readRelease replacedId { version := utf8 "1" } ∧
    Idle (utf8 "#") ∧
    readRelease (utf8 "ID=old\nNAME='A B'\nID=new") { version := utf8 "1" } =
      readRelease replacedId { version := utf8 "1" } ∧
    Regrouped keyOf? (Text.lines replacedId) (Text.lines (utf8 "#\nID=old\nID=new\nNAME='A B'")) ∧
    readRelease (utf8 "#\nID=old\nID=new\nNAME='A B'") { version := utf8 "1" } =
      readRelease replacedId { version := utf8 "1" } := by
  obtain ⟨-, hlast, hskip, hregroup⟩ := readRelease_last_assignments replacedId { version := utf8 "1" }
  have hsame : ∀ (k : ReleaseKey) o, LastAssigned (Text.lines replacedId) k.text o →
      LastAssigned (Text.lines (utf8 " NAME=A B\nID=new")) k.text o := by
    intro k o
    rw [lastAssigned_iff, lastAssigned_iff]
    rintro rfl
    cases k <;> decide +kernel
  have hidle : Idle (utf8 "#") :=
    .comment [] ⟨⟨[], [], by decide +kernel, nofun⟩, by simp [isBlank], by simp [isBlank]⟩
  have hmoved : Regrouped keyOf? (Text.lines replacedId)
      (Text.lines (utf8 "#\nID=old\nID=new\nNAME='A B'")) := by
    have hkeys : keyOf? (utf8 "NAME='A B'") ≠ keyOf? (utf8 "ID=new") := by decide +kernel
    exact Regrouped.swap hkeys [utf8 "#", utf8 "ID=old"] []
  refine ⟨by decide +kernel, hsame, hlast _ hsame, hidle, ?_, hmoved, hregroup _ hmoved⟩
  exact hskip _ [] (utf8 "#") _ (by decide +kernel) rfl (Or.inl hidle)

end GpuTelemetry.Os
