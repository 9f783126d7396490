import GpuTelemetry.Sysfs.Tree
import GpuTelemetry.Proofs.Lookup
import Mathlib.Data.List.Basic
/-!
What two trees have in common. A path of names that stand for themselves leads down the entries, and what
is read there depends on that node alone: on the content of a file, and on the names in a directory but not
on their order. So two trees that look the same outside of some places are read the same wherever a path
leads past these places.
-/

namespace GpuTelemetry

namespace Text

theorem le_total : ∀ a b : Text, (le a b || le b a) = true
  | [], _ => rfl
  | _ :: _, [] => rfl
  | x :: a, y :: b => by
    have ih := le_total a b
    rcases eq_or_ne x y with rfl | hne
    · simpa [le] using ih
    · rcases UInt8.lt_or_lt_of_ne hne with hlt | hlt
      · simp [le, hlt]
      · simp [le, hlt]

theorem le_antisymm : ∀ {a b : Text}, le a b = true → le b a = true → a = b
  | [], [], _, _ => rfl
  | [], _ :: _, _, h => nomatch h
  | _ :: _, [], h, _ => nomatch h
  | x :: a, y :: b, hab, hba => by
    simp only [le, Bool.or_eq_true, decide_eq_true_eq, Bool.and_eq_true, beq_iff_eq] at hab hba
    rcases hab with hlt | ⟨rfl, hab⟩
    · rcases hba with hlt' | ⟨rfl, -⟩
      · exact absurd hlt' (UInt8.lt_asymm hlt)
      · exact absurd hlt (UInt8.lt_irrefl _)
    · rcases hba with hlt | ⟨-, hba⟩
      · exact absurd hlt (UInt8.lt_irrefl _)
      · rw [le_antisymm hab hba]

theorem le_trans : ∀ a b c : Text, le a b = true → le b c = true → le a c = true
  | [], _, _, _, _ => rfl
  | _ :: _, [], _, h, _ => nomatch h
  | _ :: _, _ :: _, [], _, h => nomatch h
  | x :: a, y :: b, z :: c, hab, hbc => by
    simp only [le, Bool.or_eq_true, decide_eq_true_eq, Bool.and_eq_true, beq_iff_eq] at hab hbc ⊢
    rcases hab with hlt | ⟨rfl, hab⟩
    · rcases hbc with hlt' | ⟨rfl, -⟩
      · exact Or.inl (UInt8.lt_trans hlt hlt')
      · exact Or.inl hlt
    · rcases hbc with hlt | ⟨rfl, hbc⟩
      · exact Or.inl hlt
      · exact Or.inr ⟨rfl, le_trans a b c hab hbc⟩

/-- Texts in order are the same whatever order they came in. -/
theorem mergeSort_congr {l l' : List Text} (h : l.Perm l') : l.mergeSort le = l'.mergeSort le := by
  have hsorted (l : List Text) : (l.mergeSort le).Pairwise fun a b => le a b = true :=
    List.pairwise_mergeSort le_trans le_total l
  have hperm := (List.mergeSort_perm l le).trans (h.trans (List.mergeSort_perm l' le).symm)
  exact hperm.eq_of_pairwise (fun _ _ _ _ => le_antisymm) (hsorted l) (hsorted l')

end Text

namespace FileTree

def Node.descend? : Node → Path → Option Node
  | n, [] => some n
  | n, name :: p => (n.child? name).bind (·.descend? p)

def names (t : FileTree) (p : Path) : List Text :=
  match t.node? p with
  | some d => d.entries.map (·.1)
  | none => []

def Literal (name : Text) : Prop := name ≠ [] ∧ name ≠ utf8 "." ∧ name ≠ utf8 ".." ∧ 0 ∉ name

instance (name : Text) : Decidable (Literal name) := inferInstanceAs (Decidable (_ ∧ _))

/-- The path goes down only: to a node that is there, and from there by names that stand for themselves. -/
def Leads (t : FileTree) (p : Path) : Prop :=
  ∃ a b, p = a ++ b ∧ (t.top.descend? a).isSome = true ∧ ∀ name ∈ b, Literal name

def Visible (hidden : List Path) (p : Path) : Prop := ∀ q ∈ hidden, ¬ q <+: p

instance (hidden : List Path) (p : Path) : Decidable (Visible hidden p) :=
  inferInstanceAs (Decidable (∀ q ∈ hidden, ¬ q <+: p))

/-- Nodes look alike if both are missing, or are files of the same content, or directories in which the same
names are shown, in whatever order. -/
def Alike (shown : Text → Bool) : Option Node → Option Node → Prop
  | none, none => True
  | some (.file content), some (.file content') => content' = content
  | some (.directory es), some (.directory es') =>
    ((es.map (·.1)).filter shown).Perm ((es'.map (·.1)).filter shown)
  | _, _ => False

def Node.SameOutside (hidden : List Path) (n n' : Node) : Prop :=
  ∀ p, Visible hidden p →
    Alike (fun name => Visible hidden (p ++ [name])) (n.descend? p) (n'.descend? p)

/-- Two trees in one place are the same but for what is at the hidden places and below them. -/
structure SameOutside (hidden : List Path) (t t' : FileTree) : Prop where
  way : t'.way = t.way
  top : t.top.SameOutside hidden t'.top

variable {t t' : FileTree} {n c c' : Node} {p q r : Path} {name start : Text} {hidden : List Path}

/-! ### Ways down -/

theorem descend?_append (n : Node) (p q : Path) :
    n.descend? (p ++ q) = (n.descend? p).bind (·.descend? q) := by
  induction p generalizing n with
  | nil => rfl
  | cons name p ih =>
    simp only [List.cons_append, Node.descend?, ih, Option.bind_assoc]

theorem step?_of_child? {s : Place} (h : s.node.child? name = some c) :
    s.step? name = some ⟨c, (name, s.node) :: s.above⟩ := by
  unfold Place.step?
  cases hnode : s.node with
  | file content =>
    rw [hnode] at h
    cases h
  | directory es =>
    rw [hnode] at h
    have hlookup : es.lookup name = some c := h
    simp only [hlookup]

/-- Where names lead is where the path leads, and from there it goes on. -/
theorem follow?_append {s : Place} (h : s.node.descend? p = some c) (q : Path) :
    ∃ s' : Place, s'.node = c ∧ s.follow? (p ++ q) = s'.follow? q := by
  induction p generalizing s with
  | nil => exact ⟨s, Option.some.inj h, rfl⟩
  | cons name p ih =>
    obtain ⟨d, hd, hrest⟩ := Option.bind_eq_some_iff.1 h
    have hstep := step?_of_child? hd
    obtain ⟨s', hs', hfollow⟩ := ih (s := ⟨d, (name, s.node) :: s.above⟩) hrest
    refine ⟨s', hs', ?_⟩
    rw [List.cons_append, Place.follow?, hstep]
    exact hfollow

/-- A name that stands for itself leads nowhere if there is no such entry. -/
theorem step?_eq_none (hname : Literal name) {s : Place} (h : s.node.child? name = none) :
    s.step? name = none := by
  obtain ⟨hempty, hdot, hdots, -⟩ := hname
  unfold Place.step?
  cases hnode : s.node with
  | file content => rfl
  | directory es =>
    rw [hnode] at h
    have hlookup : es.lookup name = none := h
    simp only [hlookup]
    rw [if_neg (not_or.2 ⟨hempty, hdot⟩), if_neg hdots]

/-- A path of names that stand for themselves leads where the names do. -/
theorem follow?_of_literal (h : ∀ name ∈ p, Literal name) (s : Place) :
    (s.follow? p).map (·.node) = s.node.descend? p := by
  induction p generalizing s with
  | nil => rfl
  | cons name p ih =>
    rw [List.forall_mem_cons] at h
    rw [Place.follow?, Node.descend?]
    cases hchild : s.node.child? name with
    | none =>
      have hnul : ¬ name.contains 0 = true := by simpa using h.1.2.2.2
      rw [step?_eq_none h.1 hchild]
      simp only [if_neg hnul]
      rfl
    | some d =>
      rw [step?_of_child? hchild]
      exact ih h.2 _

/-- A path that goes down only is either not taken or leads where its names do. -/
theorem node?_of_leads (h : t.Leads p) :
    t.node? p = if t.takes p then t.top.descend? p else none := by
  obtain ⟨a, b, rfl, ha, hb⟩ := h
  obtain ⟨d, hd⟩ := Option.isSome_iff_exists.1 ha
  have htop : (Place.top t.top).node.descend? a = some d := hd
  obtain ⟨s, hs, hfollow⟩ := follow?_append htop b
  have hdown : ((Place.top t.top).follow? (a ++ b)).map (·.node) = t.top.descend? (a ++ b) := by
    rw [hfollow, follow?_of_literal hb, hs, descend?_append, hd]
    rfl
  rw [node?, place?]
  split
  · exact hdown
  · rfl

theorem leads_of_literal (t : FileTree) (h : ∀ name ∈ p, Literal name) : t.Leads p :=
  ⟨[], p, rfl, rfl, h⟩

theorem Leads.append (h : t.Leads p) (hq : ∀ name ∈ q, Literal name) : t.Leads (p ++ q) := by
  obtain ⟨a, b, rfl, ha, hb⟩ := h
  refine ⟨a, b ++ q, List.append_assoc a b q, ha, ?_⟩
  rw [List.forall_mem_append]
  exact ⟨hb, hq⟩

/-! ### Names -/

theorem list_eq (t : FileTree) (p : Path) (start : Text) :
    t.list p start = ((t.names p).filter (Text.startsWith · start)).mergeSort Text.le := by
  unfold list names
  cases t.node? p with
  | none => exact (List.mergeSort_nil).symm
  | some d => rfl

theorem mem_list : name ∈ t.list p start ↔ name ∈ t.names p ∧ Text.startsWith name start = true := by
  rw [list_eq, List.mem_mergeSort, List.mem_filter]

theorem child?_isSome : (n.child? name).isSome = true ↔ name ∈ n.entries.map (·.1) := by
  rw [Node.child?, List.lookup_isSome_iff, List.mem_map]
  exact exists_congr fun e => and_congr_right fun _ => beq_iff_eq.trans eq_comm

/-- To a name in a directory leads a way down. -/
theorem Leads.listed (h : t.Leads p) (hname : name ∈ t.names p) : t.Leads (p ++ [name]) := by
  unfold names at hname
  rw [node?_of_leads h] at hname
  split at hname
  · rename_i d hd
    split at hd
    · refine ⟨p ++ [name], [], (List.append_nil _).symm, ?_, nofun⟩
      rw [descend?_append, hd]
      have hchild := child?_isSome.2 hname
      obtain ⟨e, he⟩ := Option.isSome_iff_exists.1 hchild
      simp [Node.descend?, he]
    · cases hd
  · cases hname

/-! ### Trees that are the same outside -/

theorem Visible.of_append (h : Visible hidden (p ++ q)) : Visible hidden p :=
  fun r hr hbelow => h r hr (hbelow.trans (List.prefix_append p q))

theorem Alike.refl (shown : Text → Bool) (o : Option Node) : Alike shown o o := by
  match o with
  | none => exact trivial
  | some (.file content) => exact (rfl : content = content)
  | some (.directory es) => exact List.Perm.refl _

theorem Alike.isSome_eq {shown : Text → Bool} {o o' : Option Node} (h : Alike shown o o') :
    o'.isSome = o.isSome := by
  match o, o', h with
  | none, none, _ => rfl
  | some (.file _), some (.file _), _ => rfl
  | some (.directory _), some (.directory _), _ => rfl

/-- Where a path goes down in one tree it does so in the other. -/
theorem SameOutside.leads (h : SameOutside hidden t t') (hp : t.Leads p) (hv : Visible hidden p) :
    t'.Leads p := by
  obtain ⟨a, b, rfl, ha, hb⟩ := hp
  exact ⟨a, b, rfl, (h.top a hv.of_append).isSome_eq.trans ha, hb⟩

theorem SameOutside.takes (h : SameOutside hidden t t') (p : Path) : t'.takes p = t.takes p := by
  rw [FileTree.takes, FileTree.takes, h.way]

/-- What stands at a place that can be seen looks alike in both trees. -/
theorem SameOutside.node (h : SameOutside hidden t t') (hp : t.Leads p) (hv : Visible hidden p) :
    Alike (fun name => Visible hidden (p ++ [name])) (t.node? p) (t'.node? p) := by
  rw [node?_of_leads hp, node?_of_leads (h.leads hp hv), h.takes]
  split
  · exact h.top p hv
  · exact trivial

/-- What is read at a place that can be seen is the same in both trees. -/
theorem SameOutside.readText (h : SameOutside hidden t t') (hp : t.Leads p) (hv : Visible hidden p) :
    t'.readText p = t.readText p := by
  have halike := h.node hp hv
  unfold FileTree.readText
  match t.node? p, t'.node? p, halike with
  | none, none, _ => rfl
  | some (.file _), some (.file _), hcontent => exact congrArg some hcontent
  | some (.directory _), some (.directory _), _ => rfl

theorem SameOutside.readLine (h : SameOutside hidden t t') (hp : t.Leads p) (hv : Visible hidden p) :
    t'.readLine p = t.readLine p := by
  rw [FileTree.readLine, FileTree.readLine, h.readText hp hv]

theorem SameOutside.isDirectory (h : SameOutside hidden t t') (hp : t.Leads p)
    (hv : Visible hidden p) : t'.isDirectory p = t.isDirectory p := by
  have halike := h.node hp hv
  unfold FileTree.isDirectory
  match t.node? p, t'.node? p, halike with
  | none, none, _ => rfl
  | some (.file _), some (.file _), _ => rfl
  | some (.directory _), some (.directory _), _ => rfl

theorem SameOutside.names (h : SameOutside hidden t t') (hp : t.Leads p) (hv : Visible hidden p) :
    ((t.names p).filter fun name => Visible hidden (p ++ [name])).Perm
      ((t'.names p).filter fun name => Visible hidden (p ++ [name])) := by
  have halike := h.node hp hv
  unfold FileTree.names
  match t.node? p, t'.node? p, halike with
  | none, none, _ => exact List.Perm.refl _
  | some (.file _), some (.file _), _ => exact List.Perm.refl _
  | some (.directory _), some (.directory _), hnames => exact hnames

/-- The names of a directory are listed the same if none of those asked for is hidden. -/
theorem SameOutside.list (h : SameOutside hidden t t') (hp : t.Leads p) (hv : Visible hidden p)
    (hshown : ∀ name, Text.startsWith name start = true → Visible hidden (p ++ [name])) :
    t'.list p start = t.list p start := by
  have hfilter (names : List Text) : names.filter (Text.startsWith · start) =
      (names.filter fun name => Visible hidden (p ++ [name])).filter (Text.startsWith · start) := by
    rw [List.filter_filter]
    apply List.filter_congr
    intro name _
    cases hstart : Text.startsWith name start with
    | false => rfl
    | true => simpa using hshown name hstart
  rw [list_eq, list_eq, hfilter, hfilter (t.names p)]
  exact Text.mergeSort_congr ((h.names hp hv).filter _).symm

/-! ### Changed nodes -/

namespace Node

/-- What is not looked at may be anything. -/
theorem SameOutside.self (n n' : Node) : SameOutside [[]] n n' :=
  fun _ hv => absurd List.nil_prefix (hv [] List.mem_cons_self)

/-- The order of the entries of a directory does not count. -/
theorem SameOutside.of_perm {es es' : List (Text × Node)} (h : es.Perm es')
    (hnodup : (es.map (·.1)).Nodup) : SameOutside [] (.directory es) (.directory es') := by
  rintro (_ | ⟨name, p⟩) -
  · exact (h.map _).filter _
  · have hchild : (directory es').child? name = (directory es).child? name := lookup_perm h hnodup
    rw [descend?, descend?, hchild]
    exact Alike.refl _ _

/-- What a change below one child does not show above it. -/
theorem SameOutside.setChild (hc : n.child? name = some c) (h : SameOutside hidden c c') :
    SameOutside (hidden.map (name :: ·)) n (n.setChild name c') := by
  obtain ⟨es, rfl⟩ : ∃ es, n = .directory es := by
    cases n with
    | file content => cases hc
    | directory es => exact ⟨es, rfl⟩
  have hset : (directory es).setChild name c' =
      .directory (es.map fun e => if e.1 = name then (name, c') else e) := by
    rw [Node.setChild, if_pos (by rw [hc]; rfl)]
    simp only [entries, beq_iff_eq]
  have hchild (other : Text) : ((directory es).setChild name c').child? other =
      if other = name then some c' else (directory es).child? other := by
    have hlookup : es.lookup name = some c := hc
    rw [hset]
    refine lookup_replace.trans ?_
    rw [hlookup]
    rfl
  have hvisible (p : Path) :
      Visible (hidden.map (name :: ·)) (name :: p) ↔ Visible hidden p := by
    simp [Visible, List.cons_prefix_cons]
  -- the directory lists the same names; a path into it goes into the child or past it
  rintro (_ | ⟨other, p⟩) hv
  · rw [hset]
    exact List.Perm.of_eq (congrArg _ map_fst_replace.symm)
  · rw [descend?, descend?, hchild]
    by_cases hother : other = name
    · subst hother
      rw [if_pos rfl, hc]
      have halike := h p ((hvisible p).1 hv)
      simpa only [List.cons_append, hvisible, Option.bind_some] using halike
    · rw [if_neg hother]
      exact Alike.refl _ _

/-- A node changed into another does not show outside of its place. -/
theorem SameOutside.insert {n c c' : Node} {p : Path} (hc : n.descend? p = some c)
    (h : SameOutside hidden c c') : SameOutside (hidden.map (p ++ ·)) n (n.insert c' p) := by
  induction p generalizing n with
  | nil =>
    obtain rfl : n = c := Option.some.inj hc
    simpa [Node.insert] using h
  | cons name p ih =>
    obtain ⟨d, hd, hrest⟩ := Option.bind_eq_some_iff.1 hc
    have hset := SameOutside.setChild hd (ih hrest)
    rw [List.map_map] at hset
    rw [Node.insert, hd]
    exact hset

end Node

end FileTree

end GpuTelemetry
