import FilterQuery.Number.Decimal

/-!
Values of a filter document, and the guess of a value's type from its text.
-/
namespace FilterQuery

/-- A value inside a filter document. `undefined` differs from `null` and from an absent key; the
entries of an object stand in the order in which their keys came. -/
inductive Value where
  | undefined
  | null
  | bool (b : Bool)
  | number (n : Number)
  | string (s : String)
  | array (items : List Value)
  | object (entries : List (String × Value))
deriving Inhabited, Repr

/-- A mapping from keys to values in the order in which the keys came. Keys are field names, dotted
paths, or operator symbols such as `$gt`. -/
abbrev Document := List (String × Value)

namespace Value

/-- The value that a text most likely means: a finite number, a truth value, or the text itself. -/
def guess (text : String) : Value :=
  match Number.ofText? text with
  | some n => .number n
  | none =>
    if text = "true" then .bool true
    else if text = "false" then .bool false
    else .string text

def guessed : Value → Value
  | .string s => guess s
  | v => v

def isUndefined : Value → Bool
  | .undefined => true
  | _ => false

def asObject? : Value → Option Document
  | .object entries => some entries
  | _ => none

end Value
end FilterQuery
