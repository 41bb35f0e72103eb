import FilterQuery.Text.Digit
import Mathlib.Data.List.Basic

/-! Decimal digits of whole numbers: no other characters, no zero in front, and read back. Codes of
characters in four hexadecimal digits, of either case, are read back too. -/
namespace FilterQuery.Text

theorem isDigit_eq (c : Char) : isDigit c = c.isDigit := by
  simp only [isDigit, Char.isDigit, Char.le_def]

theorem isDigit_of_mem_decimalDigits {n : Nat} {c : Char} (h : c ∈ decimalDigits n) :
    isDigit c = true := by
  rw [isDigit_eq]
  exact Nat.isDigit_of_mem_toDigits (by decide) (by decide) h

theorem decimalDigits_ne_nil (n : Nat) : decimalDigits n ≠ [] :=
  Nat.toDigits_ne_nil

theorem exists_decimalDigits (n : Nat) :
    ∃ c digits, decimalDigits n = c :: digits ∧ isDigit c = true := by
  obtain ⟨c, digits, h⟩ := List.exists_cons_of_ne_nil (decimalDigits_ne_nil n)
  exact ⟨c, digits, h, isDigit_of_mem_decimalDigits (h ▸ List.mem_cons_self)⟩

theorem head?_decimalDigits_ne {n : Nat} (hn : n ≠ 0) : (decimalDigits n).head? ≠ some '0' := by
  induction n using Nat.strongRecOn with
  | ind n ih =>
    by_cases hlt : n < 10
    · rw [decimalDigits, Nat.toDigits_of_lt_base hlt]
      simpa using hn
    · have hdiv : n / 10 ≠ 0 := by omega
      rw [decimalDigits, Nat.toDigits_of_base_le (by decide) (Nat.not_lt.mp hlt),
        List.head?_append_of_ne_nil _ Nat.toDigits_ne_nil]
      exact ih (n / 10) (by omega) hdiv

/-- Only zero itself is written with a zero in front. -/
theorem length_decimalDigits_of_head? {n : Nat} (h : (decimalDigits n).head? = some '0') :
    (decimalDigits n).length = 1 := by
  by_cases hn : n = 0
  · rw [hn]
    rfl
  · exact absurd h (head?_decimalDigits_ne hn)

theorem foldl_digitValue (digits : List Char) (start : Nat) :
    digits.foldl (fun n c => n * 10 + digitValue c) start = Nat.ofDigitChars 10 digits start := by
  simp only [Nat.ofDigitChars_eq_foldl, Nat.mul_comm, digitValue]

theorem decimalValue_decimalDigits (n : Nat) : decimalValue (decimalDigits n) = n := by
  rw [decimalValue, foldl_digitValue]
  exact Nat.ofDigitChars_ten_toDigits

theorem hexValue?_hexPadded : ∀ n < 128, (hexPadded 4 n).length = 4 ∧
    hexValue? (hexPadded 4 n) = some n ∧
    hexValue? ((hexPadded 4 n).map Char.toUpper) = some n := by
  decide

theorem scalar?_toNat (c : Char) : scalar? c.toNat = some c := by
  rw [scalar?, if_pos (show c.toNat.isValidChar from c.valid), Char.ofNat_toNat]

end FilterQuery.Text
