import GpuTelemetry.Filter
import GpuTelemetry.Proofs.Latest
import Mathlib.Data.Fintype.Basic

namespace GpuTelemetry

open Decimal (Double)

namespace Condition

inductive Kind where
  | vendor | minTemperature | maxTemperature | minUtilization | maxUtilization
  | activeOnly | withTemperature | withPower
deriving DecidableEq

instance : Fintype Kind :=
  .ofList [.vendor, .minTemperature, .maxTemperature, .minUtilization, .maxUtilization, .activeOnly,
    .withTemperature, .withPower] fun k => by cases k <;> decide

def kind : Condition → Kind
  | .vendor _ => .vendor
  | .minTemperature _ => .minTemperature
  | .maxTemperature _ => .maxTemperature
  | .minUtilization _ => .minUtilization
  | .maxUtilization _ => .maxUtilization
  | .activeOnly => .activeOnly
  | .withTemperature => .withTemperature
  | .withPower => .withPower

/-- The device meets the condition. A bound is met by a metric that is reported. -/
def MetBy (r : Reading) : Condition → Prop
  | .vendor v => r.vendor.family = v.family
  | .minTemperature x => ∃ t ∈ r.temperatureC, x.value ≤ t.value
  | .maxTemperature x => ∃ t ∈ r.temperatureC, t.value ≤ x.value
  | .minUtilization x => ∃ u ∈ r.utilizationPercent, x.value ≤ u.value
  | .maxUtilization x => ∃ u ∈ r.utilizationPercent, u.value ≤ x.value
  | .activeOnly => r.active = some true
  | .withTemperature => r.temperatureC ≠ none
  | .withPower => r.powerUsageW ≠ none

instance (r : Reading) : DecidablePred (MetBy r)
  | .vendor _ => inferInstanceAs (Decidable (_ = _))
  | .minTemperature _ | .maxTemperature _ => inferInstanceAs (Decidable (∃ t ∈ r.temperatureC, _))
  | .minUtilization _ | .maxUtilization _ =>
    inferInstanceAs (Decidable (∃ u ∈ r.utilizationPercent, _))
  | .activeOnly => inferInstanceAs (Decidable (_ = _))
  | .withTemperature => decidable_of_iff (r.temperatureC.isSome = true) Option.isSome_iff_ne_none
  | .withPower => decidable_of_iff (r.powerUsageW.isSome = true) Option.isSome_iff_ne_none

def ofKind (k : Kind) (c : Condition) : Option Condition := if c.kind = k then some c else none

end Condition

open Condition (Kind ofKind)

/-- For each kind of condition the device meets the last one. -/
def Selected (cs : List Condition) (r : Reading) : Prop :=
  ∀ k, ∀ c ∈ latest? (ofKind k) cs, c.MetBy r

instance (cs : List Condition) : DecidablePred (Selected cs) :=
  fun r => inferInstanceAs (Decidable (∀ k, ∀ c ∈ latest? (ofKind k) cs, c.MetBy r))

namespace Filter

variable {f g : Filter} {c : Condition} {cs cs' before after : List Condition} {k : Kind}
  {r : Reading}

def condition? (f : Filter) : Kind → Option Condition
  | .vendor => f.vendor.map .vendor
  | .minTemperature => f.minTemperature.map .minTemperature
  | .maxTemperature => f.maxTemperature.map .maxTemperature
  | .minUtilization => f.minUtilization.map .minUtilization
  | .maxUtilization => f.maxUtilization.map .maxUtilization
  | .activeOnly => if f.activeOnly then some .activeOnly else none
  | .withTemperature => if f.withTemperature then some .withTemperature else none
  | .withPower => if f.withPower then some .withPower else none

/-! ### What is set -/

theorem condition?_add (f : Filter) (c : Condition) (k : Kind) :
    (f.add c).condition? k = (ofKind k c).or (f.condition? k) := by
  cases c <;> cases k <;> rfl

/-- Of each kind the last condition is set. -/
theorem condition?_ofConditions (cs : List Condition) (k : Kind) :
    (ofConditions cs).condition? k = latest? (ofKind k) cs := by
  have hnone : condition? {} k = none := by cases k <;> rfl
  have h := foldl_eq_latest? (condition? · k) (fun f c => condition?_add f c k) {} cs
  rwa [hnone, Option.or_none] at h

/-- A filter is known by the conditions that are set. -/
theorem eq_of_condition? (h : ∀ k, f.condition? k = g.condition? k) : f = g := by
  obtain ⟨v, minT, maxT, minU, maxU, active, temperature, power⟩ := f
  obtain ⟨v', minT', maxT', minU', maxU', active', temperature', power'⟩ := g
  -- a filter is nothing but its eight conditions
  have hmap {α : Type} {of : α → Condition} (hof : ∀ a b, of a = of b → a = b) {x y : Option α}
      (hxy : x.map of = y.map of) : x = y :=
    Option.map_injective (fun a b => hof a b) hxy
  have hflag {c : Condition} {a b : Bool}
      (hab : (if a then some c else none) = if b then some c else none) : a = b := by
    cases a <;> cases b <;> simp_all
  rw [Filter.mk.injEq]
  exact ⟨hmap (fun _ _ => Condition.vendor.inj) (h .vendor),
    hmap (fun _ _ => Condition.minTemperature.inj) (h .minTemperature),
    hmap (fun _ _ => Condition.maxTemperature.inj) (h .maxTemperature),
    hmap (fun _ _ => Condition.minUtilization.inj) (h .minUtilization),
    hmap (fun _ _ => Condition.maxUtilization.inj) (h .maxUtilization),
    hflag (h .activeOnly), hflag (h .withTemperature), hflag (h .withPower)⟩

/-- Only the last condition of each kind matters. -/
theorem ofConditions_congr (h : ∀ k, latest? (ofKind k) cs = latest? (ofKind k) cs') :
    ofConditions cs = ofConditions cs' := by
  apply eq_of_condition?
  intro k
  rw [condition?_ofConditions, condition?_ofConditions, h k]

/-! ### What is selected -/

theorem atLeast_iff {bound value : Option Double} :
    atLeast bound value = true ↔ ∀ b ∈ bound, ∃ x ∈ value, b.value ≤ x.value := by
  simp [atLeast, Option.all_eq_true, Option.any_eq_true]

theorem atMost_iff {bound value : Option Double} :
    atMost bound value = true ↔ ∀ b ∈ bound, ∃ x ∈ value, x.value ≤ b.value := by
  simp [atMost, Option.all_eq_true, Option.any_eq_true]

/-- A condition without a value is asked for only if it is set. -/
theorem flag_iff {isSet met : Bool} (hmet : met = true ↔ c.MetBy r) :
    (!isSet || met) = true ↔ ∀ d ∈ (if isSet then some c else none), d.MetBy r := by
  cases isSet <;> simp [hmet]

/-- A device is accepted if it meets every condition that is set. -/
theorem accepts_iff : f.accepts r = true ↔ ∀ k, ∀ c ∈ f.condition? k, c.MetBy r := by
  -- each check asks for the condition of its kind, if one is set
  have hvendor : f.vendor.all (r.vendor.sameFamily ·) = true ↔
      ∀ c ∈ f.condition? .vendor, c.MetBy r := by
    simp [condition?, Option.all_eq_true, Vendor.sameFamily, Condition.MetBy]
  have hminT : atLeast f.minTemperature r.temperatureC = true ↔
      ∀ c ∈ f.condition? .minTemperature, c.MetBy r := by
    rw [atLeast_iff, condition?, Option.forall_mem_map]
    rfl
  have hmaxT : atMost f.maxTemperature r.temperatureC = true ↔
      ∀ c ∈ f.condition? .maxTemperature, c.MetBy r := by
    rw [atMost_iff, condition?, Option.forall_mem_map]
    rfl
  have hminU : atLeast f.minUtilization r.utilizationPercent = true ↔
      ∀ c ∈ f.condition? .minUtilization, c.MetBy r := by
    rw [atLeast_iff, condition?, Option.forall_mem_map]
    rfl
  have hmaxU : atMost f.maxUtilization r.utilizationPercent = true ↔
      ∀ c ∈ f.condition? .maxUtilization, c.MetBy r := by
    rw [atMost_iff, condition?, Option.forall_mem_map]
    rfl
  have hactive : (!f.activeOnly || r.isActive) = true ↔ ∀ c ∈ f.condition? .activeOnly, c.MetBy r :=
    flag_iff (by simp [Reading.isActive, Condition.MetBy, Option.getD_eq_iff])
  have htemperature : (!f.withTemperature || r.temperatureC.isSome) = true ↔
      ∀ c ∈ f.condition? .withTemperature, c.MetBy r := flag_iff Option.isSome_iff_ne_none
  have hpower : (!f.withPower || r.powerUsageW.isSome) = true ↔
      ∀ c ∈ f.condition? .withPower, c.MetBy r := flag_iff Option.isSome_iff_ne_none
  simp only [accepts, Bool.and_eq_true, hvendor, hminT, hmaxT, hminU, hmaxU, hactive, htemperature,
    hpower]
  constructor
  · rintro ⟨⟨⟨⟨⟨⟨⟨_, _⟩, _⟩, _⟩, _⟩, _⟩, _⟩, _⟩ k
    cases k <;> assumption
  · intro h
    exact ⟨⟨⟨⟨⟨⟨⟨h _, h _⟩, h _⟩, h _⟩, h _⟩, h _⟩, h _⟩, h _⟩

/-- A device is accepted exactly if it is selected. -/
theorem accepts_ofConditions : (ofConditions cs).accepts r = true ↔ Selected cs r := by
  rw [accepts_iff, Selected]
  simp only [condition?_ofConditions]

/-- The devices that are selected, in their order. -/
theorem collect_ofConditions (cs : List Condition) (rs : List Reading) :
    (ofConditions cs).collect rs = rs.filter (Selected cs ·) := by
  apply List.filter_congr
  intro r _
  rw [Bool.eq_iff_iff, accepts_ofConditions, decide_eq_true_iff]

theorem any_iff {rs : List Reading} : f.any rs = true ↔ f.collect rs ≠ [] := by
  rw [any, first, collect, ← List.head?_filter, List.isSome_head?]

/-- A condition of a kind that was not set before selects from what was selected. -/
theorem selected_of_insert (hnew : ∀ d ∈ before ++ after, d.kind ≠ c.kind)
    (h : Selected (before ++ c :: after) r) : Selected (before ++ after) r := by
  intro k d hd
  by_cases hk : c.kind = k
  · have hnone : latest? (ofKind k) (before ++ after) = none :=
      latest?_eq_none.2 fun d hd => if_neg (hk ▸ hnew d hd)
    rw [hnone] at hd
    cases hd
  · have hother : ofKind k c = none := if_neg hk
    apply h k d
    rwa [latest?_skip (Or.inl hother)]

/-- **A filter is a conjunction.** It selects, in their order, the devices that meet the last condition of
each kind that was set; how many there are, which is the first and whether there is one agree with that.
Conditions of different kinds may be set in any order, and one may be set again as long as no other
of its kind has been set since. A condition of a new kind, wherever it is set, adds no device. -/
theorem selects_conjunction (cs : List Condition) :
    (∀ rs, (ofConditions cs).collect rs = rs.filter (Selected cs ·) ∧
      (ofConditions cs).count rs = ((ofConditions cs).collect rs).length ∧
      (ofConditions cs).first rs = ((ofConditions cs).collect rs).head? ∧
      ((ofConditions cs).any rs = true ↔ (ofConditions cs).collect rs ≠ [])) ∧
    (∀ cs', Regrouped Condition.kind cs cs' → ofConditions cs' = ofConditions cs) ∧
    (∀ before c between after, cs = before ++ c :: between ++ after →
      (∀ d ∈ between, d.kind = c.kind → d = c) →
      ofConditions (before ++ c :: between ++ c :: after) = ofConditions cs) ∧
    (∀ before c after, cs = before ++ after → (∀ d ∈ cs, d.kind ≠ c.kind) → ∀ rs,
      ((ofConditions (before ++ c :: after)).collect rs).Sublist ((ofConditions cs).collect rs)) := by
  refine ⟨fun rs => ⟨collect_ofConditions cs rs, List.countP_eq_length_filter,
    List.head?_filter.symm, any_iff⟩, ?_, ?_, ?_⟩
  · intro cs' h
    apply ofConditions_congr
    intro k
    exact (h.latest?_eq fun c hc => if_neg hc).symm
  · rintro before c between after rfl hsame
    apply ofConditions_congr
    intro k
    -- of its own kind it is the last either way, to other kinds it is nothing
    by_cases hk : c.kind = k
    · apply latest?_repeat
      intro d hd
      by_cases hd' : d.kind = c.kind
      · exact Or.inr (by rw [hsame d hd hd'])
      · exact Or.inl (if_neg (hk ▸ hd'))
    · exact latest?_skip (Or.inl (if_neg hk))
  · rintro before c after rfl hnew rs
    rw [collect_ofConditions, collect_ofConditions]
    -- one condition more to meet
    apply List.monotone_filter_right
    intro r hr
    simpa using selected_of_insert hnew (by simpa using hr)

def mixedDevices : List Reading :=
  [{ vendor := .intel .integrated, temperatureC := some (.ofFloat 60), active := some false },
   { vendor := .intel .discrete, temperatureC := some (.ofFloat 80), active := some true },
   { vendor := .intel .discrete }]

def loweredBound : List Condition :=
  [.minTemperature (.ofFloat 90), .vendor (.intel .unknown), .minTemperature (.ofFloat 50)]

/-- A bound is lowered, and the device between the two bounds is selected. -/
theorem selects_conjunction_of_lowered :
    ((ofConditions loweredBound).collect mixedDevices).map (·.vendor) =
      [.intel .integrated, .intel .discrete] ∧
    (ofConditions loweredBound).count mixedDevices =
      ((ofConditions loweredBound).collect mixedDevices).length ∧
    Regrouped Condition.kind loweredBound
      [.vendor (.intel .unknown), .minTemperature (.ofFloat 90), .minTemperature (.ofFloat 50)] ∧
    ofConditions [.vendor (.intel .unknown), .minTemperature (.ofFloat 90),
      .minTemperature (.ofFloat 50)] = ofConditions loweredBound ∧
    ofConditions [.minTemperature (.ofFloat 90), .vendor (.intel .unknown),
      .minTemperature (.ofFloat 90), .minTemperature (.ofFloat 50)] = ofConditions loweredBound ∧
    (∀ d ∈ loweredBound, d.kind ≠ .withPower) ∧
    ((ofConditions (.withPower :: loweredBound)).collect mixedDevices).Sublist
      ((ofConditions loweredBound).collect mixedDevices) := by
  obtain ⟨hselects, hregroup, hrepeat, hinsert⟩ := selects_conjunction loweredBound
  obtain ⟨hcollect, hcount, -⟩ := hselects mixedDevices
  have hgroups : Regrouped Condition.kind loweredBound
      [.vendor (.intel .unknown), .minTemperature (.ofFloat 90), .minTemperature (.ofFloat 50)] := by
    have hkinds : (Condition.minTemperature (.ofFloat 90)).kind ≠ (Condition.vendor (.intel .unknown)).kind :=
      nofun
    exact Regrouped.swap hkinds [] [.minTemperature (.ofFloat 50)]
  have hnew : ∀ d ∈ loweredBound, d.kind ≠ .withPower := by simp [loweredBound, Condition.kind]
  refine ⟨?_, hcount, hgroups, hregroup _ hgroups, ?_, hnew, hinsert [] .withPower loweredBound rfl hnew _⟩
  · rw [hcollect]
    decide
  · exact hrepeat [] (.minTemperature (.ofFloat 90)) [.vendor (.intel .unknown)]
      [.minTemperature (.ofFloat 50)] rfl (by simp [Condition.kind])

end Filter

end GpuTelemetry
