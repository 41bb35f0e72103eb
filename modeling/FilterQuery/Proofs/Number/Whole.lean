import FilterQuery.Number.Basic
import Mathlib.Algebra.Order.Ring.Nat

/-! Whole numbers among the doubles. Main statements: below `2 ^ 53` the nearest double to a whole
number has exactly its value, and no other double of this value has the same sign; from there on all
doubles are whole. -/
namespace FilterQuery.Number

theorem binade_eq : binade = 2 ^ 52 := rfl

theorem infinityRank_eq : infinityRank = 2047 * 2 ^ 52 := rfl

/-! ### Fields of a rank -/

theorem fields_of_rank {x : Number} {e m : Nat} (hrank : x.rank.val = e * binade + m)
    (hlow : binade ≤ m) (hhigh : m < 2 * binade) : x.exponent = e ∧ x.significand = m := by
  rw [exponent, significand, hrank]
  rw [binade_eq] at *
  constructor
  · omega
  · split <;> omega

theorem rank_eq {x : Number} (h : binade ≤ x.rank.val) :
    x.rank.val = x.exponent * binade + x.significand ∧ binade ≤ x.significand ∧
      x.significand < 2 * binade := by
  rw [exponent, significand, if_neg (Nat.not_lt.mpr h)]
  rw [binade_eq] at *
  omega

theorem le_exponent {x : Number} {e : Nat} (h : (e + 1) * binade ≤ x.rank.val) :
    e ≤ x.exponent := by
  rw [exponent]
  rw [binade_eq] at *
  omega

theorem denominator_eq_one {x : Number} (h : 1074 ≤ x.exponent) : x.denominator = 1 := by
  rw [denominator, Nat.sub_eq_zero_of_le h, Nat.pow_eq, Nat.pow_zero]

theorem le_rank_ofRank {r rank : Nat} (negative : Bool) (hr : r ≤ rank) (hinf : r ≤ infinityRank) :
    r ≤ (ofRank negative rank).rank.val := by
  rw [ofRank]
  split
  · exact hr
  · exact hinf

theorem negative_ofRank (negative : Bool) (rank : Nat) :
    (ofRank negative rank).negative = negative := by
  rw [ofRank]
  split
  · rfl
  · rw [infinity]

/-! ### Whole numbers -/

theorem roundDiv_one (n : Nat) : roundDiv n 1 = n := by
  simp [roundDiv, Nat.mod_one]

section
variable {n : Nat}

theorem le_shifted (hn : n ≠ 0) (hlog : n.log2 ≤ 52) : binade ≤ n * 2 ^ (52 - n.log2) := by
  calc binade = 2 ^ n.log2 * 2 ^ (52 - n.log2) := by
        rw [← Nat.pow_add, Nat.add_sub_cancel' hlog, binade_eq]
    _ ≤ n * 2 ^ (52 - n.log2) := Nat.mul_le_mul_right _ (Nat.log2_self_le hn)

theorem shifted_lt (hlog : n.log2 ≤ 52) : n * 2 ^ (52 - n.log2) < 2 * binade := by
  calc n * 2 ^ (52 - n.log2) < 2 ^ (n.log2 + 1) * 2 ^ (52 - n.log2) :=
        Nat.mul_lt_mul_of_pos_right Nat.lt_log2_self (Nat.two_pow_pos _)
    _ = 2 ^ 53 := by
        rw [← Nat.pow_add]
        congr 1
        omega
    _ = 2 * binade := rfl

theorem scaleOf_one (hn : n ≠ 0) : scaleOf n 1 = n.log2 + 1022 := by
  have he : n.log2 + 1074 - Nat.log2 1 - 52 = n.log2 + 1022 := by
    have hone : Nat.log2 1 = 0 := by decide
    omega
  simp only [scaleOf, he, Nat.pow_eq, one_mul]
  refine if_neg (Nat.not_lt.mpr ?_)
  by_cases hlog : n.log2 ≤ 52
  · have hright : n.log2 + 1022 - 1074 = 0 := by omega
    have hleft : 1074 - (n.log2 + 1022) = 52 - n.log2 := Nat.add_sub_add_right 52 1022 _
    rw [hright, hleft, Nat.pow_zero, Nat.one_mul]
    exact le_shifted hn hlog
  · have hright : n.log2 + 1022 - 1074 + 52 = n.log2 := by omega
    have hleft : 1074 - (n.log2 + 1022) = 0 := by omega
    rw [hleft, Nat.pow_zero, Nat.mul_one, binade_eq, ← Nat.pow_add, hright]
    exact Nat.log2_self_le hn

theorem log2_le_of_lt (h : n < 2 ^ 53) : n.log2 ≤ 52 := by
  by_cases hn : n = 0
  · simp [hn]
  · exact Nat.le_of_lt_succ ((Nat.log2_lt hn).mpr h)

theorem ofNat_eq (hn : n ≠ 0) :
    ofNat n = ofRank false ((n.log2 + 1022) * binade +
      roundDiv (n * 2 ^ (1074 - (n.log2 + 1022))) (2 ^ (n.log2 + 1022 - 1074))) := by
  rw [ofNat, ofRatio, if_neg (by simpa using hn)]
  simp only [scaleOf_one hn, Nat.pow_eq, one_mul]

theorem negative_ofNat (n : Nat) : (ofNat n).negative = false := by
  by_cases hn : n = 0
  · rw [hn]
    rfl
  · rw [ofNat_eq hn, negative_ofRank]

theorem rank_ofNat (hn : n ≠ 0) (h : n < 2 ^ 53) :
    (ofNat n).rank.val = (n.log2 + 1022) * binade + n * 2 ^ (52 - n.log2) := by
  have hlog := log2_le_of_lt h
  have hright : n.log2 + 1022 - 1074 = 0 := by omega
  have hleft : 1074 - (n.log2 + 1022) = 52 - n.log2 := Nat.add_sub_add_right 52 1022 _
  have hfinite : (n.log2 + 1022) * binade + n * 2 ^ (52 - n.log2) < infinityRank := by
    have hsig := shifted_lt hlog
    rw [infinityRank_eq, binade_eq] at *
    omega
  rw [ofNat_eq hn, hright, hleft, Nat.pow_zero, roundDiv_one, ofRank, dif_pos hfinite]

theorem fields_ofNat (hn : n ≠ 0) (h : n < 2 ^ 53) :
    (ofNat n).exponent = n.log2 + 1022 ∧ (ofNat n).significand = n * 2 ^ (52 - n.log2) :=
  fields_of_rank (rank_ofNat hn h) (le_shifted hn (log2_le_of_lt h)) (shifted_lt (log2_le_of_lt h))

theorem le_exponent_ofNat (h : 2 ^ 53 ≤ n) : 1074 ≤ (ofNat n).exponent := by
  have hn : n ≠ 0 := by
    rintro rfl
    simp at h
  have hlog : 53 ≤ n.log2 := (Nat.le_log2 hn).mpr h
  refine le_exponent ?_
  rw [ofNat_eq hn]
  refine le_rank_ofRank false ?_ (by decide)
  rw [binade_eq]
  omega

/-- The double nearest to a whole number is whole. -/
theorem denominator_dvd_ofNat (n : Nat) : (ofNat n).denominator ∣ (ofNat n).numerator := by
  by_cases hn : n = 0
  · subst hn
    exact Nat.dvd_zero _
  by_cases h : n < 2 ^ 53
  · obtain ⟨he, hs⟩ := fields_ofNat hn h
    have hlog := log2_le_of_lt h
    have hshift : 1074 - (n.log2 + 1022) = 52 - n.log2 := Nat.add_sub_add_right 52 1022 _
    rw [denominator, numerator, he, hs, hshift, Nat.pow_eq]
    exact Dvd.dvd.mul_right (Nat.dvd_mul_left _ n) _
  · rw [denominator_eq_one (le_exponent_ofNat (Nat.not_lt.mp h))]
    exact Nat.one_dvd _

theorem numerator_of_wholeMagnitude? {x : Number} (h : x.wholeMagnitude? = some n) :
    x.numerator = n * x.denominator := by
  rw [wholeMagnitude?] at h
  split at h
  · rename_i hwhole
    simp only [Bool.and_eq_true, beq_iff_eq] at hwhole
    cases h
    exact (Nat.div_mul_cancel (Nat.dvd_of_mod_eq_zero hwhole.2)).symm
  · cases h

theorem rank_eq_zero_of_numerator {x : Number} (h : x.numerator = 0) : x.rank.val = 0 := by
  have hsig : x.significand = 0 := by
    rw [numerator, Nat.pow_eq] at h
    exact (Nat.mul_eq_zero.mp h).resolve_right (Nat.two_pow_pos _).ne'
  by_contra hne
  by_cases hsmall : x.rank.val < binade
  · rw [significand, if_pos hsmall] at hsig
    exact hne hsig
  · have hlow := (rank_eq (Nat.not_lt.mp hsmall)).2.1
    rw [hsig, binade_eq] at hlow
    omega

/-- A whole double below `2 ^ 53` is normal, and its unit is not above one. -/
theorem exponent_le_of_whole {x : Number} (hx : x.numerator = n * x.denominator) (hn : n ≠ 0)
    (h : n < 2 ^ 53) : binade ≤ x.rank.val ∧ x.exponent ≤ 1074 := by
  have hnormal : binade ≤ x.rank.val := by
    by_contra hsmall
    have hexp : x.exponent = 0 := by
      rw [exponent, Nat.div_eq_of_lt (Nat.not_le.mp hsmall)]
    have hnum : x.numerator = x.rank.val := by
      rw [numerator, significand, if_pos (Nat.not_le.mp hsmall), hexp]
      exact Nat.mul_one _
    have hden : binade ≤ x.denominator := by
      rw [denominator, Nat.pow_eq, binade_eq]
      exact Nat.pow_le_pow_right (by decide) (by omega)
    have hbig : x.denominator ≤ n * x.denominator :=
      Nat.le_mul_of_pos_left _ (Nat.pos_of_ne_zero hn)
    omega
  refine ⟨hnormal, ?_⟩
  by_contra hexp
  have hlow := (rank_eq hnormal).2.1
  have hunit : 2 ≤ 2 ^ (x.exponent - 1074) := Nat.le_self_pow (by omega) 2
  rw [denominator_eq_one (by omega), Nat.mul_one, numerator, Nat.pow_eq] at hx
  have hbig := Nat.mul_le_mul hlow hunit
  rw [binade_eq] at hbig
  omega

theorem log2_of_shifted {j m : Nat} (hm : n * 2 ^ j = m) (hlow : binade ≤ m)
    (hhigh : m < 2 * binade) (hn : n ≠ 0) : n.log2 + j = 52 := by
  have hj : j ≤ 52 := by
    by_contra hj
    have hpow : 2 ^ 53 ≤ 2 ^ j := Nat.pow_le_pow_right (by decide) (by omega)
    have hle : 2 ^ j ≤ n * 2 ^ j := Nat.le_mul_of_pos_left _ (Nat.pos_of_ne_zero hn)
    rw [binade_eq] at hhigh
    omega
  have hlog : n.log2 = 52 - j := by
    rw [Nat.log2_eq_iff hn]
    have h52 : 2 ^ (52 - j) * 2 ^ j = 2 ^ 52 := by rw [← Nat.pow_add, Nat.sub_add_cancel hj]
    have h53 : 2 ^ (52 - j + 1) * 2 ^ j = 2 ^ 53 := by
      rw [← Nat.pow_add]
      congr 1
      omega
    rw [binade_eq] at hlow hhigh
    constructor
    · refine Nat.le_of_mul_le_mul_right ?_ (Nat.two_pow_pos j)
      omega
    · refine Nat.lt_of_mul_lt_mul_right (a := 2 ^ j) ?_
      omega
  omega

/-- A whole number below `2 ^ 53` has one double of each sign. -/
theorem rank_ofNat_of_whole {x : Number} (hx : x.wholeMagnitude? = some n) (h : n < 2 ^ 53) :
    (ofNat n).rank = x.rank := by
  have hnum := numerator_of_wholeMagnitude? hx
  refine Fin.ext ?_
  by_cases hn : n = 0
  · subst hn
    rw [Nat.zero_mul] at hnum
    exact (rank_eq_zero_of_numerator hnum).symm
  · obtain ⟨hnormal, hexp⟩ := exponent_le_of_whole hnum hn h
    obtain ⟨hrank, hlow, hhigh⟩ := rank_eq hnormal
    have hsig : n * 2 ^ (1074 - x.exponent) = x.significand := by
      rw [numerator, denominator, Nat.sub_eq_zero_of_le hexp] at hnum
      simpa using hnum.symm
    have hlog := log2_of_shifted hsig hlow hhigh hn
    have hshift : 52 - n.log2 = 1074 - x.exponent := by omega
    have hunit : n.log2 + 1022 = x.exponent := by omega
    rw [rank_ofNat hn h, hshift, hunit, hsig, hrank]

end
end FilterQuery.Number
