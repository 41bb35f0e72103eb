import FilterQuery.Number.Printer
import FilterQuery.Proofs.Number.Whole
import FilterQuery.Proofs.Text.Digit

/-! Whole numbers in key paths. Main statement: whatever its size, a whole number is written with
digits alone, since the shortest decimal that names it is found before any grid with decimals. -/
namespace FilterQuery.Number
open Text

theorem Digits.exponent_le_strip (n : Nat) (d : Digits) : d.exponent ≤ (d.strip n).exponent := by
  induction n generalizing d with
  | zero => exact Int.le_refl _
  | succ n ih =>
    rw [strip]
    split
    · have hnext := ih ⟨d.digits / 10, d.exponent + 1⟩
      dsimp only at hnext
      omega
    · exact Int.le_refl _

namespace Interval
variable {i : Interval} {v : Nat}

/-- The value is whole and lies inside the interval. -/
structure IsWhole (i : Interval) (v : Nat) : Prop where
  value : i.value = v * i.unit
  unit : 0 < i.unit
  low : i.low < i.value
  high : i.value < i.high

theorem IsWhole.contains (h : i.IsWhole v) : i.contains v 0 = true := by
  have hlow := h.low
  have hhigh := h.high
  rw [h.value] at hlow hhigh
  by_cases hclosed : i.closed
  · simp [Interval.contains, hclosed, hlow.le, hhigh.le]
  · simp [Interval.contains, hclosed, hlow, hhigh]

theorem IsWhole.onGrid?_zero (h : i.IsWhole v) (tie : Tie) : ∃ point, i.onGrid? tie 0 = some point := by
  have hbelow : i.value * Nat.pow 10 (-0 : Int).toNat / (i.unit * Nat.pow 10 (0 : Int).toNat) = v := by
    simp [h.value, Nat.mul_div_cancel _ h.unit]
  dsimp only [onGrid?]
  rw [hbelow, h.contains]
  split
  · exact ⟨_, rfl⟩
  · exact ⟨_, rfl⟩
  · rename_i hfalse _
    cases hfalse
  · rename_i hfalse _
    cases hfalse

theorem IsWhole.exponent_search (h : i.IsWhole v) (tie : Tie) (grids : Nat) {exponent : Int}
    (he : 0 ≤ exponent) : 0 ≤ (i.search tie grids exponent).exponent := by
  induction grids generalizing exponent with
  | zero => exact he
  | succ grids ih =>
    rw [search]
    split
    · exact he
    · -- the grid of whole numbers is never passed, for the value lies on it
      rename_i hnone
      refine ih ?_
      by_contra hlt
      obtain rfl : exponent = 0 := by omega
      obtain ⟨point, hpoint⟩ := h.onGrid?_zero tie
      rw [hpoint] at hnone
      cases hnone

theorem IsWhole.magnitude (h : i.IsWhole v) (hv : v ≠ 0) : 0 ≤ i.magnitude := by
  have hunit : i.unit ≤ i.value := by
    rw [h.value]
    exact Nat.le_mul_of_pos_left _ (Nat.pos_of_ne_zero hv)
  have hlength := List.length_pos_of_ne_nil (decimalDigits_ne_nil (i.value / i.unit))
  rw [Interval.magnitude, if_pos hunit]
  omega

end Interval

variable {x : Number}

theorem interval_isWhole {v : Nat} (h : x.numerator = v * x.denominator)
    (hsig : x.significand ≠ 0) : x.interval.IsWhole v where
  value := by
    have hvalue : x.interval.value = 4 * x.numerator := Nat.mul_assoc _ _ _
    have hunit : x.interval.unit = 4 * x.denominator := rfl
    rw [hvalue, hunit, h, Nat.mul_left_comm]
  unit := Nat.mul_pos (by decide) (Nat.two_pow_pos _)
  low := by
    refine Nat.mul_lt_mul_of_pos_right ?_ (Nat.two_pow_pos _)
    split <;> omega
  high := Nat.mul_lt_mul_of_pos_right (by omega) (Nat.two_pow_pos _)

theorem exponent_shortest (hwhole : x.denominator ∣ x.numerator) (hsig : x.significand ≠ 0)
    (tie : Tie) : 0 ≤ (x.shortest tie).exponent := by
  obtain ⟨v, hv⟩ := hwhole
  rw [Nat.mul_comm] at hv
  have hinterval := interval_isWhole hv hsig
  have hne : v ≠ 0 := by
    rintro rfl
    have hvalue := hinterval.value
    have hlow := hinterval.low
    omega
  exact le_trans (hinterval.exponent_search tie 17 (hinterval.magnitude hne))
    (Digits.exponent_le_strip 18 _)

theorem Digits.positional_of_nonneg {d : Digits} (h : 0 ≤ d.exponent) :
    d.positional = decimalDigits d.digits ++ List.replicate d.exponent.toNat '0' :=
  if_pos h

/-- A double is written without a point if it is whole. -/
theorem plain_isDigits (hsign : x.negative = false) (hwhole : x.denominator ∣ x.numerator) :
    x.plain ≠ [] ∧ ∀ c ∈ x.plain, isDigit c = true := by
  have hsafe : ∀ n, x.safeInt? = some n → 0 ≤ n := by
    intro n hn
    rw [safeInt?, hsign] at hn
    split at hn
    · split at hn
      · cases hn
        exact Int.natCast_nonneg _
      · cases hn
    · cases hn
  rw [plain]
  cases hn : x.safeInt? with
  | some n =>
    have htext : intText n = decimalDigits n.natAbs := if_neg (Int.not_lt.mpr (hsafe n hn))
    simp only [htext]
    exact ⟨decimalDigits_ne_nil _, fun c hc => isDigit_of_mem_decimalDigits hc⟩
  | none =>
    have hsig : x.significand ≠ 0 := by
      intro hzero
      have hnum : x.numerator = 0 := by rw [numerator, hzero, Nat.zero_mul]
      have hfinite : x.isFinite = true := by
        rw [isFinite, rank_eq_zero_of_numerator hnum]
        rfl
      simp [safeInt?, wholeMagnitude?, hnum, hfinite] at hn
    have htext := Digits.positional_of_nonneg (exponent_shortest hwhole hsig .up)
    simp only [signed, hsign, Bool.false_eq_true, if_false, htext]
    refine ⟨by simp [decimalDigits_ne_nil], fun c hc => ?_⟩
    obtain hc | hc := List.mem_append.mp hc
    · exact isDigit_of_mem_decimalDigits hc
    · rw [List.eq_of_mem_replicate hc]
      rfl

theorem plain_ofNat_isDigits (n : Nat) :
    (ofNat n).plain ≠ [] ∧ ∀ c ∈ (ofNat n).plain, isDigit c = true :=
  plain_isDigits (negative_ofNat n) (denominator_dvd_ofNat n)

end FilterQuery.Number
