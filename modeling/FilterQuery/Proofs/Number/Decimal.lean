import FilterQuery.Number.Decimal
import FilterQuery.Number.Printer
import FilterQuery.Proofs.Number.Whole
import FilterQuery.Proofs.Text.Digit
import FilterQuery.Proofs.Text.Trim
import Mathlib.Data.List.TakeDrop

/-! Whole numbers up to `2 ^ 53` in decimal digits. Main statements: the digits are read as the double
of this value, and a key path has the double in the same digits. -/
namespace FilterQuery
open Text

theorem Text.isBlank_of_isDigit {c : Char} (h : isDigit c = true) : isBlank c = false := by
  simp only [isDigit, Bool.and_eq_true, decide_eq_true_eq, Char.le_def] at h
  have hcode : 48 ≤ c.toNat ∧ c.toNat ≤ 57 := h
  simp only [isBlank, within, blankRuns, inRuns, Bool.or_false, Bool.and_eq_false_imp,
    decide_eq_true_eq, Bool.or_eq_false_iff, decide_eq_false_iff_not, not_lt]
  omega

namespace Decimal

theorem splitSign_of_isDigit {c : Char} (h : isDigit c = true) (rest : List Char) :
    splitSign (c :: rest) = (false, c :: rest) := by
  rw [splitSign.eq_def]
  split
  · rename_i heq
    cases heq
    cases h
  · rename_i heq
    cases heq
    cases h
  · rfl

theorem read?_decimalDigits (n : Nat) : read? (decimalDigits n) = some ⟨false, n, 0⟩ := by
  have hsign : splitSign (decimalDigits n) = (false, decimalDigits n) := by
    obtain ⟨c, digits, hdigits, hc⟩ := exists_decimalDigits n
    rw [hdigits, splitSign_of_isDigit hc]
  have hspan : (decimalDigits n).span isDigit = (decimalDigits n, []) := by
    rw [List.span_eq_takeWhile_dropWhile, List.takeWhile_eq_self_iff.mpr,
      List.dropWhile_eq_nil_iff.mpr]
    · exact fun c hc => isDigit_of_mem_decimalDigits hc
    · exact fun c hc => isDigit_of_mem_decimalDigits hc
  simp only [read?, hsign, hspan, readExponent?]
  simp [decimalDigits_ne_nil, decimalValue_decimalDigits]

theorem toNumber_whole {n : Nat} (h : n ≤ 2 ^ 53) : toNumber ⟨false, n, 0⟩ = .ofNat n := by
  have hlength : (decimalDigits n).length ≤ 16 :=
    (Nat.length_toDigits_le_iff (by decide) (by decide)).mpr (by omega)
  by_cases hn : n = 0
  · rw [hn]
    rfl
  · have hlow : ¬ ((decimalDigits n).length : Int) < -330 := by omega
    have hhigh : ¬ (310 : Int) < (decimalDigits n).length := by omega
    simp [toNumber, hn, hlow, hhigh, Number.ofNat]

end Decimal

namespace Number
variable {n : Nat}

theorem numerator_ofNat (h : n < 2 ^ 53) : (ofNat n).numerator = n * (ofNat n).denominator := by
  by_cases hn : n = 0
  · subst hn
    rw [Nat.zero_mul]
    exact Nat.zero_mul _
  · have hlog := log2_le_of_lt h
    have hunit : n.log2 + 1022 - 1074 = 0 := by omega
    have hshift : 1074 - (n.log2 + 1022) = 52 - n.log2 := Nat.add_sub_add_right 52 1022 _
    obtain ⟨he, hs⟩ := fields_ofNat hn h
    rw [numerator, denominator, he, hs, hunit, hshift]
    exact Nat.mul_one _

theorem isFinite_ofNat (h : n < 2 ^ 53) : (ofNat n).isFinite = true := by
  by_cases hn : n = 0
  · rw [hn]
    rfl
  · have hlog := log2_le_of_lt h
    have hsig := shifted_lt hlog
    rw [isFinite, rank_ofNat hn h, decide_eq_true_eq]
    rw [infinityRank_eq, binade_eq] at *
    omega

theorem wholeMagnitude?_ofNat (h : n ≤ 2 ^ 53) : (ofNat n).wholeMagnitude? = some n := by
  obtain rfl | hlt := Nat.eq_or_lt_of_le h
  · decide +kernel
  · have hpos : 0 < (ofNat n).denominator := Nat.two_pow_pos _
    rw [wholeMagnitude?, isFinite_ofNat hlt, numerator_ofNat hlt, Nat.mul_mod_left,
      Nat.mul_div_cancel _ hpos]
    rfl

theorem isFinite_of_wholeMagnitude? {x : Number} (h : x.wholeMagnitude? = some n) :
    x.isFinite = true := by
  by_contra hinfinite
  simp [wholeMagnitude?, hinfinite] at h

theorem plain_ofNat (h : n ≤ 2 ^ 53) : (ofNat n).plain = decimalDigits n := by
  obtain rfl | hlt := Nat.eq_or_lt_of_le h
  · decide +kernel
  · have hsafe : n ≤ maxSafe := Nat.le_sub_one_of_lt hlt
    rw [plain, safeInt?, wholeMagnitude?_ofNat h, negative_ofNat]
    simp [hsafe, intText]

theorem ofText?_decimalDigits (h : n ≤ 2 ^ 53) :
    ofText? (String.ofList (decimalDigits n)) = some (ofNat n) := by
  have htrim : trim (decimalDigits n) = decimalDigits n :=
    trim_of_no_blank fun c hc => isBlank_of_isDigit (isDigit_of_mem_decimalDigits hc)
  have hfinite := isFinite_of_wholeMagnitude? (wholeMagnitude?_ofNat h)
  rw [ofText?, String.toList_ofList, htrim, Decimal.read?_decimalDigits, Option.map_some,
    Decimal.toNumber_whole h]
  simp [hfinite]

end Number
end FilterQuery
