import FilterQuery.Pattern.Escape
import FilterQuery.Preferences

/-!
Definitions of operators: how a clause with the operator looks, and what builds a fragment from it.
-/
namespace FilterQuery

inductive Kind where
  | notEqual
  | isNull
  | isUndefined
  | equal
  | occurs
  | starts
  | ends
  | notAmong
  | among
  | size
  | hasIndex
  | hasIndexAfter
  | atLeast
  | atMost
  | above
  | below
  | absent
  | present
  | isFalse
  | isTrue
deriving DecidableEq, Repr

namespace Kind

def names : List (Kind × String) :=
  [(notEqual, "NotEqual"), (isNull, "IsNull"), (isUndefined, "IsUndefined"), (equal, "Equal"),
   (occurs, "RegexContains"), (starts, "RegexPrefix"), (ends, "RegexSuffix"), (notAmong, "NotIn"),
   (among, "In"), (size, "Size"), (hasIndex, "IndexExists"), (hasIndexAfter, "IndexExistsAfter"),
   (atLeast, "Gte"), (atMost, "Lte"), (above, "Gt"), (below, "Lt"), (absent, "NotExists"),
   (present, "Exists"), (isFalse, "False"), (isTrue, "True")]

def name (kind : Kind) : String :=
  (names.lookup kind).getD ""

def ofName? (name : String) : Option Kind :=
  (names.find? fun entry => entry.2 == name).map Prod.fst

end Kind

/-- The parts of a matched clause. The token is the operator as the clause writes it; the value is the
text on the right, its type guessed if that is wanted. -/
structure Operands where
  clause : String
  left : String
  token : String
  raw : Option String
  value : Option Value

/-- What turns the parts of a clause into a document. A custom builder goes by a name here; what the
name stands for is up to the host, so that tables stay plain data. -/
inductive Builder where
  | builtin (kind : Kind)
  | custom (name : String)
deriving DecidableEq, Repr

namespace Builder

def describe : Builder → String
  | builtin kind => "Builtin(" ++ kind.name ++ ")"
  | custom _ => "Custom(..)"

end Builder

/-- How a clause with an operator looks. A pattern of its own has a group `a` for the field and, if
wanted, groups `assigner` and `b` for the operator and the operand. -/
inductive Shape where
  | between
  | after
  | custom (source : String)
deriving DecidableEq, Repr

/-- One entry of an operator table. A strategy of its own overrides all preferences. -/
structure Definition where
  id : String
  shape : Shape
  builder : Builder
  merge : Option Strategy := none
  forValues : Bool := false
deriving DecidableEq, Repr

namespace Definition

def source (d : Definition) : String :=
  match d.shape with
  | .between => "^(?<a>.+?)\\s*(?<assigner>" ++ Pattern.escape d.id ++ ")\\s*(?<b>.+)$"
  | .after => "^(?<a>.+?)\\s*(?<assigner>" ++ Pattern.escape d.id ++ ")$"
  | .custom source => source

end Definition
end FilterQuery
