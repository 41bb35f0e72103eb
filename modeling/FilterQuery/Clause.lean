import FilterQuery.Host

/-!
Compiling one clause: the first definition whose pattern the clause matches builds its fragment.
-/
namespace FilterQuery

open Text

/-- What one clause contributes, not merged yet, with the strategy of its operator if that has one. -/
structure Fragment where
  document : Document
  merge : Option Strategy

namespace Fragment

def empty : Fragment := ⟨[], none⟩

def isEmpty (f : Fragment) : Bool := f.document.isEmpty

end Fragment

def Preferences.operandValue (prefs : Preferences) (raw : String) : Value :=
  if prefs.coerceOperands then .guess raw else .string raw

namespace Definition

def operands (d : Definition) (prefs : Preferences) (clause : String) (captures : Captures) :
    Operands :=
  let raw := (captures.get? "b").map String.ofList
  { clause
    left := String.ofList (trim ((captures.get? "a").getD []))
    token := ((captures.get? "assigner").map String.ofList).getD d.id
    raw
    value := raw.map prefs.operandValue }

def fragment (d : Definition) (host : Host) (settings : Settings) (clause : String)
    (captures : Captures) : Except Error Fragment :=
  (d.build host (d.operands settings.toPreferences clause captures) settings).map fun document =>
    ⟨document, d.merge⟩

end Definition

namespace Table

/-- The fragment of a clause by the first definition that it matches. A pattern that cannot be read is
a failure only where it is reached. -/
def fragment (table : Table) (host : Host) (settings : Settings) (clause : String) :
    Except Error Fragment :=
  match table with
  | [] => .error (.unrecognizedClause clause)
  | d :: rest =>
    match d.captures host.read? clause with
    | .error e => .error e
    | .ok none => fragment rest host settings clause
    | .ok (some captures) => d.fragment host settings clause captures

/-- Compiles a clause. Unless errors are wanted, a faulty clause gives an empty fragment. -/
def compileClause (table : Table) (host : Host) (settings : Settings) (clause : String) :
    Except Error Fragment :=
  match table.fragment host settings clause with
  | .ok f => .ok f
  | .error e => if !settings.throwOnError && e.isSuppressible then .ok .empty else .error e

end Table
end FilterQuery
