import FilterQuery.Operator.Basic

/-!
Operator tables. Definitions are tried in order and the first match wins, so the order says which of
two operators binds a clause that both match.
-/
namespace FilterQuery

abbrev Table := List Definition

namespace Definition

def binary (id : String) (kind : Kind) : Definition :=
  { id, shape := .between, builder := .builtin kind }

def unary (id : String) (kind : Kind) : Definition :=
  { id, shape := .after, builder := .builtin kind }

def patterned (id source : String) (kind : Kind) : Definition :=
  { id, shape := .custom source, builder := .builtin kind }

end Definition

namespace Table

def bareKey : String := "[^\\s=<>!?~^\\[\\]|#\x7b\x7d]+"

def standard : Table :=
  [.binary "!=" .notEqual,
   .unary "===null" .isNull,
   .unary "===undefined" .isUndefined,
   .binary "==" .equal,
   .binary "~=" .occurs,
   .binary "/=" .occurs,
   .binary "^=" .starts,
   .binary "$=" .ends,
   .binary "![]=" .notAmong,
   .binary "[]=" .among,
   .binary "#=" .size,
   -- the dot in front of an index is no step of a path
   { Definition.binary "#>=" .hasIndex with merge := some .literal },
   { Definition.binary "#>" .hasIndexAfter with merge := some .literal },
   .binary ">=" .atLeast,
   .binary "<=" .atMost,
   .binary ">" .above,
   .binary "<" .below,
   { Definition.binary "=" .equal with forValues := true },
   .unary "!?" .absent,
   .unary "?" .present,
   { Definition.patterned "false" ("^!(?<a>" ++ bareKey ++ ")$") .isFalse with forValues := true },
   { Definition.patterned "true" ("^(?<a>" ++ bareKey ++ ")$") .isTrue with forValues := true }]

def ids (table : Table) : List String :=
  table.map Definition.id

def get? (table : Table) (id : String) : Option Definition :=
  table.find? fun d => d.id == id

/-- Only the definitions that compilations of plain values know. -/
def valuesOnly (table : Table) : Table :=
  table.filter Definition.forValues

def prepend (table : Table) (d : Definition) : Table :=
  d :: table

def push (table : Table) (d : Definition) : Table :=
  table ++ [d]

/-- Puts a definition right before the first one with an id, or at the end if there is none. -/
def insertBefore (table : Table) (id : String) (d : Definition) : Table :=
  match table with
  | [] => [d]
  | e :: rest => if e.id == id then d :: e :: rest else e :: insertBefore rest id d

end Table
end FilterQuery
