import FilterQuery.Proofs.Text.Trim
import FilterQuery.Value
import Mathlib.Data.List.TakeDrop

/-! Guesses of types. Every guess is a scalar, and a text that holds a character foreign to numbers and
truth values stays a text. -/
namespace FilterQuery
open Text

/-- A character that is neither a blank nor used to write a number or a truth value. -/
def isForeign (c : Char) : Bool :=
  !isBlank c && !isDigit c && !"+-.eEtrufals".toList.contains c

namespace Decimal
variable {c : Char} {cs : List Char}

theorem isDigit_of_isForeign (h : isForeign c = true) : isDigit c = false := by
  simp only [isForeign, Bool.and_eq_true, Bool.not_eq_true'] at h
  exact h.1.2

theorem ne_of_isForeign (h : isForeign c = true) {d : Char} (hd : d ∈ "+-.eEtrufals".toList) :
    c ≠ d := by
  rintro rfl
  simp only [isForeign, Bool.and_eq_true, Bool.not_eq_true'] at h
  rw [List.contains_iff_mem.mpr hd] at h
  exact Bool.noConfusion h.2

theorem mem_splitSign (h : isForeign c = true) (hc : c ∈ cs) : c ∈ (splitSign cs).2 := by
  rw [splitSign.eq_def]
  split
  · exact (List.mem_cons.mp hc).resolve_left (ne_of_isForeign h (by decide))
  · exact (List.mem_cons.mp hc).resolve_left (ne_of_isForeign h (by decide))
  · exact hc

theorem mem_span (h : isForeign c = true) (hc : c ∈ cs) : c ∈ (cs.span isDigit).2 := by
  rw [List.span_eq_takeWhile_dropWhile]
  exact mem_dropWhile hc (isDigit_of_isForeign h)

theorem readExponent?_eq_none (h : isForeign c = true) (hc : c ∈ cs) : readExponent? cs = none := by
  cases cs with
  | nil => cases hc
  | cons d rest =>
    refine if_neg fun hok => ?_
    simp only [Bool.and_eq_true, Bool.or_eq_true, beq_iff_eq, List.all_eq_true] at hok
    obtain rfl | hrest := List.mem_cons.mp hc
    · obtain rfl | rfl := hok.1.1
      · exact ne_of_isForeign h (by decide) rfl
      · exact ne_of_isForeign h (by decide) rfl
    · have hdigit := hok.2 c (mem_splitSign h hrest)
      rw [isDigit_of_isForeign h] at hdigit
      cases hdigit

theorem read?_eq_none (h : isForeign c = true) (hc : c ∈ cs) : read? cs = none := by
  have hrest := mem_span h (mem_splitSign h hc)
  rw [read?]
  dsimp only
  split
  · rename_i rest hdot
    rw [hdot] at hrest
    have hfraction := (List.mem_cons.mp hrest).resolve_left (ne_of_isForeign h (by decide))
    rw [readExponent?_eq_none h (mem_span h hfraction), Option.map_none, ite_self]
  · rw [readExponent?_eq_none h hrest, Option.map_none, ite_self]

end Decimal

namespace Value

def isScalar : Value → Bool
  | .bool _ | .number _ | .string _ => true
  | _ => false

theorem asObject?_of_isScalar {value : Value} (h : value.isScalar = true) :
    value.asObject? = none := by
  cases value with
  | object entries => cases h
  | _ => rfl

theorem isScalar_guess (text : String) : (guess text).isScalar = true := by
  rw [guess]
  split
  · rfl
  · split
    · rfl
    · split <;> rfl

variable {text : String}

theorem eq_of_guess_eq_string {s : String} (h : guess text = .string s) : text = s := by
  rw [guess] at h
  split at h
  · cases h
  · split at h
    · cases h
    · split at h
      · cases h
      · exact Value.string.inj h

theorem guess_of_isForeign {c : Char} (h : isForeign c = true) (hc : c ∈ text.toList) :
    guess text = .string text := by
  have hblank : isBlank c = false := by
    simp only [isForeign, Bool.and_eq_true, Bool.not_eq_true'] at h
    exact h.1.1
  have hnumber : Number.ofText? text = none := by
    rw [Number.ofText?, Decimal.read?_eq_none h (mem_trim hc hblank)]
    rfl
  have hword : ∀ word, word ⊆ "+-.eEtrufals".toList → text.toList ≠ word := by
    rintro word hsub rfl
    exact Decimal.ne_of_isForeign h (hsub hc) rfl
  have htrue : text ≠ "true" := fun ht => hword _ (by decide) (congrArg String.toList ht)
  have hfalse : text ≠ "false" := fun hf => hword _ (by decide) (congrArg String.toList hf)
  rw [guess, hnumber]
  simp only [htrue, hfalse, if_false]

end Value
end FilterQuery
