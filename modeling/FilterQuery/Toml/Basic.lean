/-!
The part of TOML that settings are written in: keys with a truth value or a string each, one to a
line.
-/
namespace FilterQuery.Toml

inductive Scalar where
  | bool (b : Bool)
  | string (s : String)
deriving DecidableEq, Repr

abbrev Entry := String × Scalar

end FilterQuery.Toml
