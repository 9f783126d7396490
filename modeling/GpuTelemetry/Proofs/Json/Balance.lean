import GpuTelemetry.Proofs.Json.Grammar
import Mathlib.Algebra.Order.BigOperators.Group.List
import Mathlib.Algebra.Order.Ring.Int
/-!
What tells that a text is no JSON. Outside of the strings of a JSON text letters stand only in `null`,
`true`, `false` and before an exponent. Weighed so that each of these words comes to nothing, they come
to nothing altogether, while `nan` and `inf` weigh something and no word makes up for it.
-/

namespace GpuTelemetry.Json

inductive Place where
  | outside
  | inside
  /-- Inside of a string, after a backslash. -/
  | escape
deriving DecidableEq

def Place.next : Place → UInt8 → Place
  | .outside, b => if b = 34 then .inside else .outside
  | .inside, b => if b = 34 then .outside else if b = 92 then .escape else .inside
  | .escape, _ => .inside

/-- The letters n, f and l weigh; `null` has one n and two l, `false` one f and one l. -/
def weight (b : UInt8) : ℤ := if b = 110 then 2 else if b = 102 then 1 else if b = 108 then -1 else 0

def surplus : Place → Text → ℤ
  | _, [] => 0
  | p, b :: s => (if p = .outside then weight b else 0) + surplus (p.next b) s

/-- Wherever the text stands outside of strings, it weighs the same and ends outside. -/
def Closed (s : Text) (n : ℤ) : Prop := ∀ t, surplus .outside (s ++ t) = n + surplus .outside t

variable {s t : Text} {n k : ℤ}

theorem Closed.surplus_eq (h : Closed s n) : surplus .outside s = n := by
  have hs := h []
  rwa [List.append_nil, surplus, add_zero] at hs

theorem closed_nil : Closed [] 0 := fun _ => (zero_add _).symm

/-- Closed texts, one behind the other, weigh what they weigh together. -/
theorem Closed.append (hs : Closed s n) (ht : Closed t k) : Closed (s ++ t) (n + k) := by
  intro u
  rw [List.append_assoc, hs, ht, add_assoc]

theorem Closed.cons {b : UInt8} (hb : b ≠ 34) (h : Closed s n) : Closed (b :: s) (weight b + n) := by
  intro t
  have hnext : Place.outside.next b = .outside := if_neg hb
  rw [List.cons_append, surplus, if_pos rfl, hnext, h, add_assoc]

theorem closed_unquoted (h : ∀ b ∈ s, b ≠ 34) : Closed s (s.map weight).sum := by
  induction s with
  | nil => exact closed_nil
  | cons b s ih =>
    obtain ⟨hb, hs⟩ := List.forall_mem_cons.1 h
    rw [List.map_cons, List.sum_cons]
    exact (ih hs).cons hb

def Light (s : Text) : Prop := ∀ b ∈ s, b ≠ 34 ∧ weight b = 0

instance : DecidablePred Light := fun s =>
  inferInstanceAs (Decidable (∀ b ∈ s, b ≠ 34 ∧ weight b = 0))

theorem Light.append (hs : Light s) (ht : Light t) : Light (s ++ t) :=
  List.forall_mem_append.2 ⟨hs, ht⟩

theorem Light.closed (h : Light s) : Closed s 0 := by
  have hall := closed_unquoted fun b hb => (h b hb).1
  rwa [List.sum_eq_zero] at hall
  intro n hn
  obtain ⟨b, hb, rfl⟩ := List.mem_map.1 hn
  exact (h b hb).2

/-! ### Tokens -/

theorem not_quote_of_isDigit {base : ℕ} {d : UInt8} (hbase : base ≤ 36)
    (h : Text.isDigit base d = true) : d ≠ 34 ∧ d ≠ 92 := by
  have hvalue : Text.digitValue d < 36 := Nat.lt_of_lt_of_le (of_decide_eq_true h) hbase
  constructor
  · rintro rfl
    exact absurd hvalue (by decide)
  · rintro rfl
    exact absurd hvalue (by decide)

/-- Inside of a string nothing weighs, and only a quote ends it. -/
theorem surplus_inside (h : ∀ b ∈ s, b ≠ 34 ∧ b ≠ 92) (t : Text) :
    surplus .inside (s ++ t) = surplus .inside t := by
  induction s with
  | nil => rfl
  | cons b s ih =>
    obtain ⟨hquote, hslash⟩ := h b List.mem_cons_self
    have hnext : Place.inside.next b = .inside := by rw [Place.next, if_neg hquote, if_neg hslash]
    rw [List.cons_append, surplus, if_neg nofun, zero_add, hnext]
    exact ih fun c hc => h c (List.mem_cons_of_mem _ hc)

theorem surplus_character (h : Character s) (t : Text) :
    surplus .inside (s ++ t) = surplus .inside t := by
  cases h with
  | plain _ hquote hslash =>
    refine surplus_inside (fun b hb => ?_) t
    rw [List.mem_singleton.1 hb]
    exact ⟨hquote, hslash⟩
  | escaped _ => simp [surplus, Place.next]
  | unicode _ hdigits =>
    have hrest := surplus_inside (fun d hd => not_quote_of_isDigit (by decide) (hdigits d hd)) t
    simpa [surplus, Place.next] using hrest

/-- Whatever stands in a string, it weighs nothing. -/
theorem closed_string (h : IsString s) : Closed s 0 := by
  obtain ⟨hs⟩ := h
  rename_i c
  intro t
  -- character by character: none of them ends the string
  have hinside (u : Text) : surplus .inside (c ++ u) = surplus .inside u := by
    induction hs with
    | nil => rfl
    | cons hc _ ih => rw [List.append_assoc, surplus_character hc, ih]
  rw [List.cons_append, List.cons_append, List.append_assoc, surplus]
  have hopen : Place.outside.next 34 = .inside := rfl
  rw [hopen, hinside]
  simp [surplus, Place.next, weight]

theorem light_blank (h : Blank s) : Light s := by
  intro b hb
  rcases h b hb with rfl | rfl | rfl | rfl <;> decide

theorem light_digits (h : DigitRun s) : Light s := by
  intro d hd
  have hten := h.2 d hd
  have hne {b : UInt8} (hb : Text.isDigit 10 b = false) : d ≠ b := by
    rintro rfl
    rw [hten] at hb
    cases hb
  refine ⟨hne (by decide), ?_⟩
  rw [weight, if_neg (hne (by decide)), if_neg (hne (by decide)), if_neg (hne (by decide))]

theorem light_sign (h : s = [] ∨ s = [43] ∨ s = [45]) : Light s := by
  rcases h with rfl | rfl | rfl <;> decide +kernel

theorem light_magnitude (h : Magnitude s) : Light s := by
  cases h with
  | parts hwhole hfraction hexponent =>
    refine ((light_digits hwhole.1).append ?_).append ?_
    · cases hfraction with
      | none => exact nofun
      | places hds => exact List.forall_mem_cons.2 ⟨by decide, light_digits hds⟩
    · cases hexponent with
      | none => exact nofun
      | power hmark hsign hds =>
        refine Light.append (List.forall_mem_cons.2 ⟨?_, light_sign hsign⟩) (light_digits hds)
        rcases hmark with rfl | rfl <;> decide

/-- The only letter of a number is the mark of its exponent, so a number weighs nothing. -/
theorem light_number (h : IsNumber s) : Light s := by
  cases h with
  | plus h => exact light_magnitude h
  | minus h => exact List.forall_mem_cons.2 ⟨by decide, light_magnitude h⟩

/-! ### Values -/

/-- A text that weighs nothing can be set between blanks. -/
theorem closed_spaced {x : Spaced} (h : Closed x.body n) : Closed x.text n := by
  have hbefore := (light_blank x.blankBefore).closed.append h
  rw [zero_add] at hbefore
  have hboth := hbefore.append (light_blank x.blankAfter).closed
  rwa [add_zero] at hboth

theorem closed_sep {items : List Text} (h : ∀ x ∈ items, Closed x (surplus .outside x)) :
    Closed (Text.sep [44] items) (items.map (surplus .outside)).sum := by
  -- commas weigh nothing between items that are closed
  have hcomma : Closed [44] 0 := Light.closed (by decide +kernel)
  induction items with
  | nil => exact closed_nil
  | cons x items ih =>
    obtain ⟨hx, hitems⟩ := List.forall_mem_cons.1 h
    rw [List.map_cons, List.sum_cons]
    cases items with
    | nil =>
      have hsingle : Text.sep [44] [x] = x := by simp [Text.sep]
      rw [hsingle, List.map_nil, List.sum_nil, add_zero]
      exact hx
    | cons y items =>
      have hmore : Text.sep [44] (x :: y :: items) = x ++ [44] ++ Text.sep [44] (y :: items) := by
        simp [Text.sep, List.intercalate, List.intersperse]
      rw [hmore]
      have hfirst := hx.append hcomma
      rw [add_zero] at hfirst
      exact hfirst.append (ih hitems)

/-- Items in brackets weigh what they weigh together. -/
theorem closed_bracketed {opening closing : UInt8} {lead : Text} {items : List Text}
    (hopen : Light [opening]) (hclose : Light [closing]) (hlead : Blank lead)
    (h : ∀ x ∈ items, Closed x (surplus .outside x)) :
    Closed (bracketed opening closing lead items) (items.map (surplus .outside)).sum := by
  have hstart := (Light.append hopen (light_blank hlead)).closed.append (closed_sep h)
  rw [zero_add] at hstart
  have hall := hstart.append hclose.closed
  rwa [add_zero] at hall

theorem closed_member {name value : Text} (hname : Closed name 0) (hvalue : Closed value n) :
    Closed (name ++ 58 :: value) n := by
  have hall := hname.append (hvalue.cons (by decide : (58 : UInt8) ≠ 34))
  rwa [zero_add, show weight 58 = 0 from rfl, zero_add] at hall

/-- Brackets around items that weigh nothing. -/
theorem closed_of_items {opening closing : UInt8} {lead : Text} {items : List Text}
    (hopen : Light [opening]) (hclose : Light [closing]) (hlead : Blank lead)
    (h : ∀ x ∈ items, Closed x 0) : Closed (bracketed opening closing lead items) 0 := by
  have hall := closed_bracketed hopen hclose hlead fun x hx => (h x hx).surplus_eq.symm ▸ h x hx
  rwa [List.sum_eq_zero] at hall
  intro k hk
  obtain ⟨x, hx, rfl⟩ := List.mem_map.1 hk
  exact (h x hx).surplus_eq

/-- A JSON text weighs nothing. -/
theorem closed_value (h : Value s) : Closed s 0 := by
  -- the three words are weighed letter by letter; what stands in brackets by the induction
  induction h with
  | null => exact closed_unquoted (by decide +kernel)
  | yes => exact closed_unquoted (by decide +kernel)
  | no => exact closed_unquoted (by decide +kernel)
  | string h => exact closed_string h
  | number h => exact (light_number h).closed
  | array hlead _ ih =>
    refine closed_of_items (by decide +kernel) (by decide +kernel) hlead fun y hy => ?_
    obtain ⟨x, hx, rfl⟩ := List.mem_map.1 hy
    exact closed_spaced (ih x hx)
  | object hlead hnames _ ih =>
    refine closed_of_items (by decide +kernel) (by decide +kernel) hlead fun y hy => ?_
    obtain ⟨m, hm, rfl⟩ := List.mem_map.1 hy
    exact closed_member (closed_spaced (closed_string (hnames m hm))) (closed_spaced (ih m hm))

/-- An item that weighs something makes the text no JSON, unless another one makes up for it. -/
theorem not_value_of_item {opening closing : UInt8} {lead : Text} {items : List Text}
    (hopen : Light [opening]) (hclose : Light [closing]) (hlead : Blank lead)
    (h : ∀ x ∈ items, ∃ k, Closed x k ∧ 0 ≤ k) (hs : s ∈ items) (hn : Closed s n) (hpos : 0 < n) :
    ¬ Value (bracketed opening closing lead items) := by
  intro hvalue
  have hitem {x : Text} (hx : x ∈ items) :
      Closed x (surplus .outside x) ∧ 0 ≤ surplus .outside x := by
    obtain ⟨k, hk, hle⟩ := h x hx
    rw [hk.surplus_eq]
    exact ⟨hk, hle⟩
  have hsum := (closed_bracketed hopen hclose hlead fun x hx => (hitem hx).1).surplus_eq
  -- no item weighs less than nothing, so what `s` weighs is left in the sum
  have hle : surplus .outside s ≤ (items.map (surplus .outside)).sum := by
    refine List.single_le_sum ?_ _ (List.mem_map_of_mem hs)
    rw [List.forall_mem_map]
    exact fun x hx => (hitem hx).2
  rw [← hsum, (closed_value hvalue).surplus_eq, hn.surplus_eq] at hle
  exact absurd hpos (not_lt.2 hle)

end GpuTelemetry.Json
