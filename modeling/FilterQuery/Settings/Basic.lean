import FilterQuery.Field
import FilterQuery.Operator.Table

/-!
The settings of a compilation, overlays that change some of them, and the check that splitting with
them is unambiguous.
-/
namespace FilterQuery

open Text

structure Settings extends Preferences where
  table : Table := .standard

/-- Changes to settings: what is absent stays as it is. -/
structure Overlay where
  throwOnError : Option Bool := none
  merge : Option Strategy := none
  mergeLiterals : Option Strategy := none
  mergeClauses : Option Strategy := none
  dialect : Option Literal.Dialect := none
  objectPattern : Option String := none
  coerceOperands : Option Bool := none
  arraySeparator : Option Char := none
  clauseSeparator : Option Char := none
  table : Option Table := none

namespace Overlay

def lenient : Overlay := { throwOnError := some false }

end Overlay

namespace Settings

def withOverlay (s : Settings) (o : Overlay) : Settings where
  throwOnError := o.throwOnError.getD s.throwOnError
  merge := o.merge.getD s.merge
  mergeLiterals := o.mergeLiterals.or s.mergeLiterals
  mergeClauses := o.mergeClauses.or s.mergeClauses
  dialect := o.dialect.getD s.dialect
  objectPattern := o.objectPattern.getD s.objectPattern
  coerceOperands := o.coerceOperands.getD s.coerceOperands
  arraySeparator := o.arraySeparator.getD s.arraySeparator
  clauseSeparator := o.clauseSeparator.getD s.clauseSeparator
  table := o.table.getD s.table

/-- A character that can separate fields: quotes, backslashes and blanks cannot. -/
def isSeparator (c : Char) : Bool :=
  c != Field.quote && c != Field.escape && !isBlank c

def checkSeparator (name : String) (separator : Char) : Except Error Unit :=
  if isSeparator separator then .ok ()
  else .error (.settings (.separatorNotAllowed name separator))

def validate (s : Settings) : Except Error Unit := do
  checkSeparator "array_separator" s.arraySeparator
  checkSeparator "clause_separator" s.clauseSeparator
  if s.arraySeparator = s.clauseSeparator then
    .error (.settings (.separatorsClash s.arraySeparator))

end Settings
end FilterQuery
