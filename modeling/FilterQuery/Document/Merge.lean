import FilterQuery.Document.Path

/-!
Merging documents. The last write wins at every leaf, objects on both sides are merged entry by
entry, and a key that is already there keeps its place.
-/
namespace FilterQuery

/-- How the keys of a document are read when it is merged into another: `dotted` lets `a.b.c` lead
into nested objects, `literal` takes a key as it is. -/
inductive Strategy where
  | dotted
  | literal
deriving DecidableEq, Repr

mutual

/-- What takes the place of an old value when a new one is written over it. -/
def Value.mergeOver : Value → Option Value → Value
  | .object entries, some (.object old) => .object (mergeEntries entries old)
  | value, _ => value

def mergeEntries : List (String × Value) → Document → Document
  | [], doc => doc
  | (key, value) :: rest, doc => mergeEntries rest (doc.update key value.mergeOver)

end

namespace Document

def deepMerge (doc source : Document) : Document :=
  mergeEntries source doc

/-- Writes a value at the end of a path. Whatever on the way is not an object is replaced by one. -/
def setPath : Document → List String → Value → Document
  | doc, [], _ => doc
  | doc, [segment], value => doc.update segment value.mergeOver
  | doc, segment :: rest, value =>
    doc.update segment fun old =>
      .object (setPath ((old.bind Value.asObject?).getD []) rest value)

def merge (doc : Document) (strategy : Strategy) (fragment : Document) : Document :=
  match strategy with
  | .dotted => fragment.foldl (fun doc entry => setPath doc (segments entry.1) entry.2) doc
  | .literal => doc.deepMerge fragment

end Document
end FilterQuery
