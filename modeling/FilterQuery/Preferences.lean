import FilterQuery.Document.Merge
import FilterQuery.Literal

/-!
The plain choices that govern a compilation, without the operators it knows.
-/
namespace FilterQuery

/-- The pattern of texts that are read as literals: braces around anything, blanks aside. -/
def defaultObjectPattern : String := "(?s)^\\s*\\\x7b.*\\\x7d\\s*$"

/-- Documents, and all else without a strategy of its own, are merged by `merge`. -/
structure Preferences where
  throwOnError : Bool := true
  merge : Strategy := .dotted
  mergeLiterals : Option Strategy := none
  mergeClauses : Option Strategy := none
  dialect : Literal.Dialect := .relaxed
  objectPattern : String := defaultObjectPattern
  coerceOperands : Bool := true
  arraySeparator : Char := '|'
  clauseSeparator : Char := ','
deriving DecidableEq, Repr

end FilterQuery
