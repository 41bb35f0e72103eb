import FilterQuery.Literal.Printer
import FilterQuery.Literal.Strict
import FilterQuery.Proofs.Number.Whole
import FilterQuery.Proofs.Text.Digit
import Mathlib.Data.List.TakeDrop

/-! Strings and numbers in strict literals. Main statements: a string is read back as it was printed,
and so is an integer up to the largest safe one, before whatever ends a value. -/
namespace FilterQuery.Literal
open Text

namespace Strict

/-! ### Strings -/

theorem readString?_control {c : Char} (h : c < ' ') (rest : List Char) :
    readString? ('\\' :: 'u' :: hexPadded 4 c.toNat ++ rest) =
      (readString? rest).map fun (cs, rest) => (c :: cs, rest) := by
  have hlt : c.toNat < 32 := h
  obtain ⟨hlength, hvalue, -⟩ := hexValue?_hexPadded c.toNat (by omega)
  obtain ⟨d₁, d₂, d₃, d₄, hdigits⟩ := List.length_eq_four.mp hlength
  have hlow : ¬ 0xD800 ≤ c.toNat := by omega
  rw [hdigits] at hvalue ⊢
  simp only [List.cons_append, List.nil_append, readString?, hvalue, hlow, scalar?_toNat, decide_false,
    Bool.false_and, Bool.false_eq_true, if_false, Option.bind_some]

theorem readString?_stringChar (c : Char) (rest : List Char) :
    readString? (stringChar c ++ rest) =
      (readString? rest).map fun (cs, rest) => (c :: cs, rest) := by
  by_cases hquoted : c = '"' ∨ c = '\\'
  · obtain rfl | rfl := hquoted <;> simp [stringChar, readString?, escape?]
  by_cases hletter : c ∈ ['\x08', '\x0c', '\n', '\r', '\t']
  · simp only [List.mem_cons, List.not_mem_nil, or_false] at hletter
    obtain rfl | rfl | rfl | rfl | rfl := hletter <;> simp [stringChar, readString?, escape?]
  by_cases hcontrol : c < ' '
  · have hchar : stringChar c = '\\' :: 'u' :: hexPadded 4 c.toNat := by
      simp_all [stringChar]
    rw [hchar]
    exact readString?_control hcontrol rest
  · have hchar : stringChar c = [c] := by
      simp_all [stringChar]
    rw [not_or] at hquoted
    rw [hchar, List.singleton_append, readString?.eq_def]
    simp [hquoted, hcontrol]

theorem readString?_string (s : List Char) (rest : List Char) :
    readString? (s.flatMap stringChar ++ '"' :: rest) = some (s, rest) := by
  induction s with
  | nil => rfl
  | cons c s ih =>
    rw [List.flatMap_cons, List.append_assoc, readString?_stringChar, ih]
    rfl

/-! ### Numbers -/

/-- A value ends before these texts: before nothing, a comma or the end of a container. -/
def Ends (rest : List Char) : Prop :=
  ∀ c ∈ rest.head?, c ∈ [',', ']', '\x7d']

theorem Ends.cons {c : Char} (h : c ∈ [',', ']', '\x7d']) (rest : List Char) : Ends (c :: rest) := by
  rintro _ ⟨⟩
  exact h

theorem Ends.head {c : Char} {rest : List Char} (h : Ends (c :: rest)) (p : Char → Bool)
    (hp : [',', ']', '\x7d'].all p = true) : p c = true :=
  List.all_eq_true.mp hp c (h c rfl)

theorem span_digits {digits rest : List Char} (hdigits : ∀ c ∈ digits, isDigit c = true)
    (hrest : Ends rest) : (digits ++ rest).span isDigit = (digits, rest) := by
  have hstop : rest.takeWhile isDigit = [] ∧ rest.dropWhile isDigit = rest := by
    cases rest with
    | nil => simp
    | cons c rest =>
      have hc : isDigit c = false := by simpa using hrest.head (fun c => !isDigit c) rfl
      simp [hc]
  rw [List.span_eq_takeWhile_dropWhile, List.takeWhile_append_of_pos hdigits,
    List.dropWhile_append_of_pos hdigits, hstop.1, hstop.2, List.append_nil]

theorem readFraction?_ends {rest : List Char} (h : Ends rest) :
    readFraction? rest = some ([], rest) := by
  rw [readFraction?.eq_def]
  split
  · exact absurd (h '.' rfl) (by decide)
  · rfl

theorem readExponent?_ends {rest : List Char} (h : Ends rest) :
    readExponent? rest = some (0, rest) := by
  cases rest with
  | nil => rfl
  | cons c rest =>
    have hmark : (c == 'e' || c == 'E') = false := by
      simpa using h.head (fun c => !(c == 'e' || c == 'E')) rfl
    rw [readExponent?, hmark]
    rfl

theorem le_foldl_digits (digits : List Char) (n : Nat) :
    n ≤ digits.foldl (fun n c => n * 10 + digitValue c) n := by
  induction digits generalizing n with
  | nil => exact Nat.le_refl n
  | cons c rest ih =>
    have hnext := ih (n * 10 + digitValue c)
    rw [List.foldl_cons]
    omega

theorem appendDigits_eq {digits : List Char} {n : Nat}
    (h : digits.foldl (fun n c => n * 10 + digitValue c) n ≤ maxSignificand) :
    appendDigits n digits =
      (digits.foldl (fun n c => n * 10 + digitValue c) n, digits.length) := by
  induction digits generalizing n with
  | nil => rfl
  | cons c rest ih =>
    rw [List.foldl_cons] at h
    have hfits := Nat.le_trans (le_foldl_digits rest _) h
    rw [appendDigits, if_pos hfits, ih h]
    rfl

theorem number?_decimalDigits (negative : Bool) {n : Nat} (h : n ≤ maxSignificand) :
    number? negative (decimalDigits n) [] 0 = some { Number.ofNat n with negative } := by
  have hkept : appendDigits 0 (decimalDigits n) = (n, (decimalDigits n).length) := by
    have hvalue := decimalValue_decimalDigits n
    rw [decimalValue] at hvalue
    rw [appendDigits_eq (hvalue.symm ▸ h), hvalue]
  simp [number?, hkept, appendDigits, scale?]

theorem readNumber?_decimalDigits (negative : Bool) {n : Nat} (hn : n ≤ maxSignificand)
    {rest : List Char} (hrest : Ends rest) :
    readNumber? ((if negative then ['-'] else []) ++ decimalDigits n ++ rest) =
      some ({ Number.ofNat n with negative }, rest) := by
  have hspan := span_digits (fun c => isDigit_of_mem_decimalDigits (n := n)) hrest
  have hlead : ((decimalDigits n).isEmpty ||
      (decide (1 < (decimalDigits n).length) && (decimalDigits n).head? == some '0')) = false := by
    by_cases hhead : (decimalDigits n).head? = some '0'
    · simp [decimalDigits_ne_nil, length_decimalDigits_of_head? hhead]
    · simp [decimalDigits_ne_nil, hhead]
  unfold readNumber?
  split
  rename_i sign cs heq
  obtain ⟨rfl, rfl⟩ : negative = sign ∧ decimalDigits n ++ rest = cs := by
    cases negative with
    | true =>
      cases heq
      exact ⟨rfl, rfl⟩
    | false =>
      obtain ⟨c, digits, hdigits, hc⟩ := exists_decimalDigits n
      rw [hdigits] at heq ⊢
      split at heq
      · rename_i hminus
        cases hminus
        cases hc
      · cases heq
        exact ⟨rfl, rfl⟩
  simp only [hspan, hlead, readFraction?_ends hrest, readExponent?_ends hrest,
    number?_decimalDigits negative hn, Bool.false_eq_true, if_false, Option.bind_eq_bind,
    Option.bind_some]

end Strict

end FilterQuery.Literal

namespace FilterQuery.Number
open Text

/-- What a literal keeps of a finite number: zero has no sign. -/
def written (x : Number) : Number :=
  if x.isZero then zero false else x

variable {x : Number} {n : Nat}

theorem isZero_iff_of_whole (h : x.wholeMagnitude? = some n) : x.isZero = true ↔ n = 0 := by
  have hnum := numerator_of_wholeMagnitude? h
  rw [isZero, beq_iff_eq]
  constructor
  · intro hrank
    have hsig : x.significand = 0 := by
      rw [significand, hrank]
      rfl
    rw [numerator, hsig, Nat.zero_mul] at hnum
    exact (Nat.mul_eq_zero.mp hnum.symm).resolve_right (Nat.two_pow_pos _).ne'
  · rintro rfl
    rw [Nat.zero_mul] at hnum
    exact rank_eq_zero_of_numerator hnum

theorem literal_of_whole (h : x.wholeMagnitude? = some n) (hn : n ≤ maxSafe) :
    x.literal = (if x.isBelowZero then ['-'] else []) ++ decimalDigits n := by
  have hsafe : x.safeInt? = some (if x.negative then -(n : Int) else n) := by
    rw [safeInt?, h]
    exact if_pos hn
  have hbelow : (if x.negative then -(n : Int) else n) < 0 ↔ x.isBelowZero = true := by
    have hzero := isZero_iff_of_whole h
    cases hneg : x.negative with
    | true =>
      rw [isBelowZero, hneg, if_pos rfl, Bool.true_and, Bool.not_eq_true', ← Bool.not_eq_true,
        hzero]
      omega
    | false => simp [isBelowZero, hneg]
  have habs : (if x.negative then -(n : Int) else n).natAbs = n := by
    split <;> simp
  rw [literal, hsafe]
  simp only [intText, hbelow, habs]
  split <;> rfl

theorem exists_literal_of_whole (h : x.wholeMagnitude? = some n) (hn : n ≤ maxSafe) :
    ∃ c cs, x.literal = c :: cs ∧ (c = '-' ∨ isDigit c = true) := by
  rw [literal_of_whole h hn]
  by_cases hbelow : x.isBelowZero = true
  · rw [if_pos hbelow]
    exact ⟨'-', _, rfl, .inl rfl⟩
  · rw [if_neg hbelow, List.nil_append]
    obtain ⟨c, digits, hdigits, hc⟩ := exists_decimalDigits n
    exact ⟨c, digits, hdigits, .inr hc⟩

theorem literal_of_not_finite (h : x.isFinite = false) : x.literal = "null".toList := by
  have hsafe : x.safeInt? = none := by
    simp [safeInt?, wholeMagnitude?, h]
  simp only [literal, hsafe, h, Bool.false_eq_true, if_false]

theorem ofNat_of_whole (h : x.wholeMagnitude? = some n) (hn : n ≤ maxSafe) :
    { ofNat n with negative := x.isBelowZero } = x.written := by
  have hrank := rank_ofNat_of_whole h (Nat.lt_of_le_of_lt hn (by decide))
  rw [written]
  split
  · rename_i hzero
    obtain rfl := (isZero_iff_of_whole h).mp hzero
    rw [isBelowZero, hzero, Bool.not_true, Bool.and_false]
    rfl
  · rename_i hzero
    rw [isBelowZero, Bool.eq_false_iff.mpr hzero, Bool.not_false, Bool.and_true]
    exact congrArg (Number.mk x.negative) hrank

end FilterQuery.Number

namespace FilterQuery.Literal

theorem Strict.readNumber?_literal {x : Number} {n : Nat} (h : x.wholeMagnitude? = some n)
    (hn : n ≤ Number.maxSafe) {rest : List Char} (hrest : Ends rest) :
    readNumber? (x.literal ++ rest) = some (x.written, rest) := by
  have hfits : n ≤ maxSignificand := Nat.le_trans hn (by decide)
  rw [Number.literal_of_whole h hn, readNumber?_decimalDigits x.isBelowZero hfits hrest,
    Number.ofNat_of_whole h hn]

end FilterQuery.Literal
