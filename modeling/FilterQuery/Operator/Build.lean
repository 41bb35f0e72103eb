import FilterQuery.Field
import FilterQuery.Operator.Basic

/-!
What the built-in operators make of the parts of a clause.
-/
namespace FilterQuery

namespace Operands

def fail {α : Type} (o : Operands) (fault : OperandFault) : Except Error α :=
  .error (.operand o.clause fault)

def requireRaw (o : Operands) : Except Error String :=
  match o.raw with
  | some raw => .ok raw
  | none => o.fail (.missing o.token)

def requireValue (o : Operands) : Except Error Value := do
  let _ ← o.requireRaw
  return o.value.getD .undefined

def requireNumber (o : Operands) : Except Error Number := do
  let raw ← o.requireRaw
  match Number.ofText? raw with
  | some n => .ok n
  | none => o.fail (.notNumber raw)

def requireIndex (o : Operands) : Except Error Nat := do
  let n ← o.requireNumber
  match n.wholeMagnitude? with
  | some index => if n.isBelowZero then o.fail (.notIndex n) else .ok index
  | none => o.fail (.notIndex n)

def requireElements (o : Operands) (separator : Char) : Except Error Value := do
  let raw ← o.requireRaw
  return .array (Field.values separator raw)

end Operands

def applied (left symbol : String) (value : Value) : Document :=
  .single left (.object [(symbol, value)])

/-- The path of an element, its index written as the nearest double. -/
def elementPath (left : String) (index : Nat) : String :=
  left ++ "." ++ String.ofList (Number.ofNat index).plain

namespace Kind

def build (kind : Kind) (o : Operands) (prefs : Preferences) : Except Error Document :=
  match kind with
  | notEqual => return applied o.left "$ne" (← o.requireValue)
  | isNull => return .single o.left .null
  | isUndefined => return .single o.left .undefined
  | equal => return .single o.left (← o.requireValue)
  | occurs => return applied o.left "$regex" (.string (← o.requireRaw))
  | starts => return applied o.left "$regex" (.string ("^" ++ (← o.requireRaw)))
  | ends => return applied o.left "$regex" (.string ((← o.requireRaw) ++ "$"))
  | notAmong => return applied o.left "$nin" (← o.requireElements prefs.arraySeparator)
  | among => return applied o.left "$in" (← o.requireElements prefs.arraySeparator)
  | size => return applied o.left "$size" (← o.requireValue)
  | hasIndex =>
    return applied (elementPath o.left (← o.requireIndex)) "$exists" (.bool true)
  | hasIndexAfter =>
    return applied (elementPath o.left ((← o.requireIndex) + 1)) "$exists" (.bool true)
  | atLeast => return applied o.left "$gte" (.number (← o.requireNumber))
  | atMost => return applied o.left "$lte" (.number (← o.requireNumber))
  | above => return applied o.left "$gt" (.number (← o.requireNumber))
  | below => return applied o.left "$lt" (.number (← o.requireNumber))
  | absent => return applied o.left "$exists" (.bool false)
  | present => return applied o.left "$exists" (.bool true)
  | isFalse => return .single o.left (.bool false)
  | isTrue => return .single o.left (.bool true)

end Kind

end FilterQuery
