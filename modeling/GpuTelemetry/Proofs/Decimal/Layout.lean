import GpuTelemetry.Decimal.Layout
import GpuTelemetry.Proofs.Decimal.Shortest
import GpuTelemetry.Proofs.Json.Grammar

namespace GpuTelemetry

open Json (DigitRun Whole Fraction Exponent Magnitude IsNumber)

namespace Text

theorem digits_ofNat (n : ℕ) : DigitRun (ofNat n) := ⟨ofNat_ne_nil n, isDigit_of_mem_ofNat⟩

theorem whole_ofNat (n : ℕ) : Whole (ofNat n) := by
  refine ⟨digits_ofNat n, fun h => ?_⟩
  rw [eq_zero_of_head_ofNat h]
  rfl

theorem magnitude_ofNat (n : ℕ) : Magnitude (ofNat n) := by
  have h := Magnitude.parts (whole_ofNat n) .none .none
  rwa [List.append_nil, List.append_nil] at h

end Text

namespace Decimal

structure Leading (ds : Text) : Prop where
  digits : DigitRun ds
  head : ds.head? ≠ some 48

variable {ds : Text} {places : ℕ}

theorem leading_ofNat {n : ℕ} (h : n ≠ 0) : Leading (Text.ofNat n) :=
  ⟨Text.digits_ofNat n, mt Text.eq_zero_of_head_ofNat h⟩

theorem Leading.whole (h : Leading ds) : Whole ds := ⟨h.digits, fun hzero => absurd hzero h.head⟩

theorem digits_zeros {n : ℕ} : ∀ d ∈ zeros n, Text.isDigit 10 d = true := by
  intro d hd
  rw [List.eq_of_mem_replicate hd]
  rfl

theorem digits_padZeros (width : ℕ) (h : DigitRun ds) : DigitRun (padZeros width ds) := by
  refine ⟨List.append_ne_nil_of_right_ne_nil _ h.1, ?_⟩
  exact List.forall_mem_append.2 ⟨digits_zeros, h.2⟩

/-- Zeros after the digits. -/
theorem Leading.append_zeros (h : Leading ds) (n : ℕ) : Whole (ds ++ zeros n) := by
  obtain ⟨d, s, rfl⟩ := List.exists_cons_of_ne_nil h.digits.1
  refine ⟨⟨by simp, List.forall_mem_append.2 ⟨h.digits.2, digits_zeros⟩⟩, fun hzero => ?_⟩
  exact absurd hzero h.head

theorem length_padZeros (width : ℕ) : (padZeros width ds).length = max width ds.length := by
  rw [padZeros, zeros, List.length_append, List.length_replicate]
  omega

/-- What stands before the point: digits that there are, or a single zero. -/
theorem Leading.whole_take (h : Leading ds) (places : ℕ) :
    Whole ((padZeros (places + 1) ds).take ((padZeros (places + 1) ds).length - places)) := by
  rw [length_padZeros]
  -- either there are zeros in front and the first one is all that stands there, or there are none
  rcases Nat.lt_or_ge ds.length (places + 1) with hshort | hlong
  · obtain ⟨n, hn⟩ := Nat.exists_eq_add_of_lt hshort
    have hone : max (places + 1) ds.length - places = 1 := by omega
    have hzero : padZeros (places + 1) ds = 48 :: (zeros n ++ ds) := by
      rw [padZeros, hn, Nat.add_assoc, Nat.add_sub_cancel_left]
      rfl
    rw [hone, hzero]
    exact Text.whole_ofNat 0
  · obtain ⟨n, hn⟩ := Nat.exists_eq_add_of_le' hlong
    have hsome : max (places + 1) ds.length - places = n + 1 := by omega
    have hsame : padZeros (places + 1) ds = ds := by
      rw [padZeros, Nat.sub_eq_zero_of_le hlong]
      rfl
    obtain ⟨d, s, rfl⟩ := List.exists_cons_of_ne_nil h.digits.1
    rw [hsome, hsame]
    exact Leading.whole
      ⟨⟨nofun, fun b hb => h.digits.2 b (List.mem_of_mem_take hb)⟩, h.head⟩

/-- A point among the digits has digits on both sides, and no zero before others. -/
theorem Leading.withPoint (h : Leading ds) (places : ℕ) {exponent : Text}
    (hexponent : Exponent exponent) : Magnitude (withPoint places ds ++ exponent) := by
  unfold Decimal.withPoint
  by_cases hplaces : places = 0
  · rw [if_pos hplaces]
    have hall := Magnitude.parts h.whole .none hexponent
    rwa [List.append_nil] at hall
  · rw [if_neg hplaces]
    refine .parts (h.whole_take places) (.places ⟨?_, fun d hd => ?_⟩) hexponent
    · apply List.ne_nil_of_length_pos
      rw [List.length_drop, length_padZeros]
      omega
    · exact (digits_padZeros _ h.digits).2 d (List.mem_of_mem_drop hd)

/-- What `plain` writes after the digits. -/
theorem exponent_power (e : ℤ) (n : ℕ) : Exponent (plain.mark ++
    (utf8 (if e < 0 then "-" else "+") ++ padZeros plain.exponentWidth (Text.ofNat n))) := by
  have hdigits := digits_padZeros plain.exponentWidth (Text.digits_ofNat n)
  have hpower {sign : Text} (hsign : sign = [] ∨ sign = [43] ∨ sign = [45]) :
      Exponent (101 :: sign ++ padZeros plain.exponentWidth (Text.ofNat n)) :=
    .power (Or.inl rfl) hsign hdigits
  split
  · exact hpower (Or.inr (Or.inr rfl))
  · exact hpower (Or.inr (Or.inl rfl))

/-- Digits that are laid out make a number, unless they are those of zero: zeros may be put after
them. -/
theorem magnitude_digits {d : Digits} (h : d.n ≠ 0) : Magnitude (plain.digits d) := by
  have hleading := leading_ofNat h
  unfold Layout.digits
  dsimp only
  split
  · split
    · have hwhole := Magnitude.parts (hleading.append_zeros d.exponent.natAbs) .none .none
      rwa [List.append_nil, List.append_nil] at hwhole
    · have hplaces := hleading.withPoint d.exponent.natAbs .none
      rwa [List.append_nil] at hplaces
  · rw [List.append_assoc, List.append_assoc]
    exact hleading.withPoint _ (exponent_power _ _)

/-! ### Doubles -/

def Binary64.isFinite : Binary64 → Bool
  | .finite .. => true
  | _ => false

def Double.finite (x : Double) : Bool := (Binary64.ofFloat x.value).isFinite

/-- A significand has 53 bits. -/
theorem Binary64.significand_lt {x : Float} {negative : Bool} {m : ℕ} {e : ℤ}
    (h : Binary64.ofFloat x = .finite negative m e) : m < Nat.pow 2 53 := by
  have hfraction : x.toBits.toNat % Nat.pow 2 52 < Nat.pow 2 52 := Nat.mod_lt _ (by decide)
  unfold Binary64.ofFloat at h
  dsimp only at h
  split at h
  · split at h <;> cases h
  · split at h
    · cases h
      exact hfraction.trans (by decide)
    · cases h
      simp only [Nat.pow_eq] at hfraction ⊢
      omega

theorem isNumber_signed {s : Text} (negative : Bool) (h : Magnitude s) :
    IsNumber (signed negative s) := by
  cases negative with
  | false => exact .plus h
  | true => exact .minus h

/-- A finite double is written as a JSON number. -/
theorem isNumber_shortest {x : Double} (h : x.finite = true) : IsNumber (plain.shortest x) := by
  unfold Double.finite at h
  unfold Layout.shortest
  split
  case h_1 hx => rw [hx] at h; cases h
  case h_2 hx => rw [hx] at h; cases h
  case h_3 negative _ _ => exact isNumber_signed negative (Text.magnitude_ofNat 0)
  case h_4 negative m e hm hx =>
    have hne := shortest_ne_zero (Nat.pos_of_ne_zero hm) (Binary64.significand_lt hx) e
    exact isNumber_signed negative (magnitude_digits hne)

/-- Without being finite, a word. -/
theorem shortest_not_finite {x : Double} (h : x.finite = false) :
    ∃ negative, plain.shortest x = signed negative (utf8 "nan") ∨
      plain.shortest x = signed negative (utf8 "inf") := by
  unfold Double.finite at h
  unfold Layout.shortest
  split
  case h_1 => exact ⟨_, Or.inl rfl⟩
  case h_2 => exact ⟨_, Or.inr rfl⟩
  case h_3 hx => rw [hx] at h; cases h
  case h_4 hx => rw [hx] at h; cases h

end Decimal

end GpuTelemetry
