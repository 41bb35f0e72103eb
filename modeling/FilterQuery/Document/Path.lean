import FilterQuery.Document.Basic

/-!
Dotted paths: what a path leads to, and the flat form of a nested document.
-/
namespace FilterQuery

/-- The segments of a dotted path, the empty ones included. -/
def segments (path : String) : List String :=
  (path.toList.splitOn '.').map String.ofList

namespace Document

def follow? : Document → List String → Option Value
  | _, [] => none
  | doc, [segment] => doc.get? segment
  | doc, segment :: rest =>
    match doc.get? segment with
    | some (.object nested) => follow? nested rest
    | _ => none

def getPath? (doc : Document) (path : String) : Option Value :=
  doc.follow? (segments path)

def joinPath (above : Option String) (key : String) : String :=
  match above with
  | some path => path ++ "." ++ key
  | none => key

/-- Flattening goes on into an object that has entries and holds no operators. -/
def isBranch (doc : Document) : Bool :=
  !doc.isEmpty && !doc.isOperator

end Document

mutual

def Value.leaves (path : String) : Value → List (String × Value)
  | .object nested =>
    if Document.isBranch nested then entryLeaves (some path) nested else [(path, .object nested)]
  | value => [(path, value)]

def entryLeaves (above : Option String) : List (String × Value) → List (String × Value)
  | [] => []
  | (key, value) :: rest =>
    value.leaves (Document.joinPath above key) ++ entryLeaves above rest

end

/-- Nested objects replaced by dotted keys. Operator documents and empty objects stay as they are. -/
def Document.flatten (doc : Document) : Document :=
  Document.ofEntries (entryLeaves none doc)

end FilterQuery
