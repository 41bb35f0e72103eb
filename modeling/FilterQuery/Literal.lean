import FilterQuery.Error
import FilterQuery.Literal.Relaxed
import FilterQuery.Literal.Strict

/-!
Documents written as literals inside texts.
-/
namespace FilterQuery.Literal

inductive Dialect where
  | strict
  | relaxed
deriving DecidableEq, Repr

def Dialect.read? : Dialect → List Char → Option Value
  | .strict => Strict.read?
  | .relaxed => Relaxed.read?

def decode (dialect : Dialect) (text : String) : Except Error Document :=
  match dialect.read? text.toList with
  | some (.object doc) => .ok doc
  | some _ => .error (.literal text .notObject)
  | none => .error (.literal text .malformed)

end FilterQuery.Literal
