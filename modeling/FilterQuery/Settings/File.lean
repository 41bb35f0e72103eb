import FilterQuery.Settings.Basic
import FilterQuery.Toml.Reader
import FilterQuery.Toml.Writer

/-!
Overlays as texts and as files. The operator table is not part of their text.
-/
namespace FilterQuery

namespace Strategy

def name : Strategy → String
  | dotted => "dotted"
  | literal => "literal"

def ofName? (name : String) : Option Strategy :=
  if name = "dotted" then some .dotted else if name = "literal" then some .literal else none

end Strategy

namespace Literal.Dialect

def isRelaxed : Dialect → Bool
  | relaxed => true
  | strict => false

def ofRelaxed (isRelaxed : Bool) : Dialect :=
  if isRelaxed then .relaxed else .strict

end Literal.Dialect

namespace Overlay

def toEntries (o : Overlay) : List Toml.Entry :=
  let bool (key : String) (b : Option Bool) := b.toList.map fun b => (key, Toml.Scalar.bool b)
  let string (key : String) (s : Option String) := s.toList.map fun s => (key, Toml.Scalar.string s)
  bool "throw_on_error" o.throwOnError
    ++ string "merge" (o.merge.map Strategy.name)
    ++ string "merge_json" (o.mergeLiterals.map Strategy.name)
    ++ string "merge_clauses" (o.mergeClauses.map Strategy.name)
    ++ bool "relaxed_decoder" (o.dialect.map Literal.Dialect.isRelaxed)
    ++ string "object_pattern" o.objectPattern
    ++ bool "coerce_right_operand" o.coerceOperands
    ++ string "array_separator" (o.arraySeparator.map Char.toString)
    ++ string "clause_separator" (o.clauseSeparator.map Char.toString)

def toText (o : Overlay) : String :=
  String.ofList (Toml.write o.toEntries)

def separator? (text : String) : Option Char :=
  match text.toList with
  | [c] => some c
  | _ => none

def fill? {α : Type} (old new : Option α) : Option (Option α) :=
  match old, new with
  | none, some a => some (some a)
  | _, _ => none

/-- Adds an entry to an overlay. Unknown keys, keys that came before and values of the wrong kind are
refused. -/
def addEntry? (o : Overlay) : Toml.Entry → Option Overlay
  | ("throw_on_error", .bool b) =>
    (fill? o.throwOnError (some b)).map fun throwOnError => { o with throwOnError }
  | ("merge", .string s) =>
    (fill? o.merge (Strategy.ofName? s)).map fun merge => { o with merge }
  | ("merge_json", .string s) =>
    (fill? o.mergeLiterals (Strategy.ofName? s)).map fun mergeLiterals => { o with mergeLiterals }
  | ("merge_clauses", .string s) =>
    (fill? o.mergeClauses (Strategy.ofName? s)).map fun mergeClauses => { o with mergeClauses }
  | ("relaxed_decoder", .bool b) =>
    (fill? o.dialect (some (.ofRelaxed b))).map fun dialect => { o with dialect }
  | ("object_pattern", .string s) =>
    (fill? o.objectPattern (some s)).map fun objectPattern => { o with objectPattern }
  | ("coerce_right_operand", .bool b) =>
    (fill? o.coerceOperands (some b)).map fun coerceOperands => { o with coerceOperands }
  | ("array_separator", .string s) =>
    (fill? o.arraySeparator (separator? s)).map fun arraySeparator => { o with arraySeparator }
  | ("clause_separator", .string s) =>
    (fill? o.clauseSeparator (separator? s)).map fun clauseSeparator => { o with clauseSeparator }
  | _ => none

def ofEntries? (entries : List Toml.Entry) : Option Overlay :=
  entries.foldlM addEntry? {}

def ofText (text : String) : Except Error Overlay :=
  match (Toml.read? text.toList).bind ofEntries? with
  | some o => .ok o
  | none => .error (.settings .unreadable)

end Overlay

inductive Place where
  | nothing
  | directory
  | file (bytes : ByteArray)

namespace Overlay

/-- The overlay in a file. Where nothing stands, nothing is changed. -/
def ofPlace : Place → Except Error Overlay
  | .nothing => .ok {}
  | .directory => .error (.file .isDirectory)
  | .file bytes =>
    match String.fromUTF8? bytes with
    | some text => ofText text
    | none => .error (.file .notUtf8)

end Overlay

structure ConfigHome where
  isRelative : Bool
  place : Place

structure Locations where
  named : Option Place
  configHome : Option ConfigHome
  home : Place

namespace Locations

/-- The one place that is looked at. A relative directory is passed over. -/
def choose (l : Locations) : Place :=
  match l.named, l.configHome with
  | some place, _ => place
  | none, some home => if home.isRelative then l.home else home.place
  | none, none => l.home

end Locations

def Overlay.load (l : Locations) : Except Error Overlay :=
  ofPlace l.choose

end FilterQuery
