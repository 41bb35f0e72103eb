import FilterQuery.Clause

/-!
Compiling inputs into one filter document.

A text holds clauses separated by commas, such as `age>=18`, `tags[]=a|b` or `!archived`, or a literal
in braces. Documents, literals and the fragments of clauses are merged in order into one document.
-/
namespace FilterQuery

/-- One argument of a compilation. Scalars say nothing about documents, and overlays have their place
at the end. -/
inductive Input where
  | document (doc : Document)
  | text (text : String)
  | list (items : List Input)
  | scalar (value : Value)
  | overlay (overlay : Overlay)

instance : Inhabited Input := ⟨.scalar .null⟩

namespace Input

/-- A list is replaced by its items; lists inside it stay. -/
def spread : Input → List Input
  | .list items => items
  | input => [input]

end Input

mutual

def Value.toInput : Value → Input
  | .object doc => .document doc
  | .string text => .text text
  | .array items => .list (itemInputs items)
  | value => .scalar value

def itemInputs : List Value → List Input
  | [] => []
  | item :: rest => item.toInput :: itemInputs rest

end

/-- The settings that a compiler works with. One for plain values forgets all other operators. -/
def Settings.effective (s : Settings) (forValues : Bool) : Settings :=
  if forValues then { s with table := s.table.valuesOnly } else s

structure Compiler where
  host : Host
  settings : Settings
  objectLike : Matcher
  forValues : Bool

namespace Compiler

/-- Checks the separators, the patterns of all operators that will be known, and the object
pattern. -/
def build (host : Host) (settings : Settings) (forValues : Bool) : Except Error Compiler := do
  settings.validate
  let settings := settings.effective forValues
  settings.table.check host.read?
  match host.read? settings.objectPattern with
  | some objectLike => .ok { host, settings, objectLike, forValues }
  | none => .error (.settings (.objectPattern settings.objectPattern))

def isObjectLike (c : Compiler) (text : String) : Bool :=
  (c.objectLike text).isSome

def clauseStrategy (c : Compiler) (f : Fragment) : Strategy :=
  (f.merge.or c.settings.mergeClauses).getD c.settings.merge

def applyClauses (c : Compiler) : Document → List String → Except Error Document
  | doc, [] => .ok doc
  | doc, clause :: rest =>
    if clause.isEmpty then applyClauses c doc rest
    else
      match c.settings.table.compileClause c.host c.settings clause with
      | .error e => .error e
      | .ok f => applyClauses c (doc.merge (c.clauseStrategy f) f.document) rest

def applyText (c : Compiler) (doc : Document) (text : String) : Except Error Document :=
  if c.isObjectLike text then
    match Literal.decode c.settings.dialect text with
    | .ok decoded => .ok (doc.merge (c.settings.mergeLiterals.getD c.settings.merge) decoded)
    | .error e => .error e
  else
    c.applyClauses doc (Field.split c.settings.clauseSeparator text)

def apply (c : Compiler) (doc : Document) : Input → Except Error Document
  | .document source => .ok (doc.merge c.settings.merge source)
  | .text text => c.applyText doc text
  | .scalar _ => .ok doc
  | .list _ => .error (.input .nestedList)
  | .overlay _ => .error (.input .misplacedOverlay)

/-- Merges inputs one after the other. Unless errors are wanted, a faulty input is left out. -/
def applyAll (c : Compiler) : Document → List Input → Except Error Document
  | doc, [] => .ok doc
  | doc, input :: rest =>
    match c.apply doc input with
    | .ok doc => applyAll c doc rest
    | .error e =>
      if c.settings.throwOnError || !e.isSuppressible then .error e else applyAll c doc rest

def run (c : Compiler) (inputs : List Input) : Except Error Document :=
  c.applyAll [] (inputs.flatMap Input.spread)

/-- Compiles inputs. An overlay after at least one other input changes the settings for this
compilation. -/
def compile (c : Compiler) (inputs : List Input) : Except Error Document :=
  match inputs.getLast? with
  | some (.overlay overlay) =>
    if 1 < inputs.length then do
      let overlaid ← build c.host (c.settings.withOverlay overlay) c.forValues
      overlaid.run inputs.dropLast
    else
      c.run inputs
  | _ => c.run inputs

def compileText (c : Compiler) (text : String) : Except Error Document :=
  c.run [.text text]

end Compiler

def compile (host : Host) (inputs : List Input) : Except Error Document := do
  let c ← Compiler.build host {} false
  c.compile inputs

/-- Compiles inputs into plain values: only `=` and bare keys are known. -/
def compileValues (host : Host) (inputs : List Input) : Except Error Document := do
  let c ← Compiler.build host {} true
  c.compile inputs

end FilterQuery
