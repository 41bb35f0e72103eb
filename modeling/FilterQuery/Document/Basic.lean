import FilterQuery.Value

/-!
Looking up and changing the entries of a document. A key that is already there keeps its place.
-/
namespace FilterQuery

namespace Document

def get? : Document → String → Option Value
  | [], _ => none
  | (k, v) :: rest, key => if k = key then some v else get? rest key

def keys (doc : Document) : List String :=
  doc.map Prod.fst

/-- Replaces the value of a key by a function of the old value; a new key goes to the end. -/
def update : Document → String → (Option Value → Value) → Document
  | [], key, f => [(key, f none)]
  | (k, v) :: rest, key, f =>
    if k = key then (k, f (some v)) :: rest else (k, v) :: update rest key f

def insert (doc : Document) (key : String) (value : Value) : Document :=
  doc.update key fun _ => value

def ofEntries (entries : List (String × Value)) : Document :=
  entries.foldl (fun doc entry => Document.insert doc entry.1 entry.2) []

def single (key : String) (value : Value) : Document :=
  [(key, value)]

/-- Some key starts with `$`: the document holds operators, such as `$gt`, and not fields. -/
def isOperator (doc : Document) : Bool :=
  doc.any fun entry => entry.1.toList.head? == some '$'

end Document

mutual

/-- Equality of values: the order of keys does not matter, and numbers are compared by value. -/
def Value.same : Value → Value → Bool
  | .undefined, .undefined => true
  | .null, .null => true
  | .bool a, .bool b => a == b
  | .number a, .number b => a.sameValue b
  | .string a, .string b => a == b
  | .array a, .array b => sameItems a b
  | .object a, .object b => a.length == b.length && sameEntries a b
  | _, _ => false

def sameItems : List Value → List Value → Bool
  | [], [] => true
  | a :: as, b :: bs => a.same b && sameItems as bs
  | _, _ => false

def sameEntries : List (String × Value) → Document → Bool
  | [], _ => true
  | (key, value) :: rest, doc =>
    (match doc.get? key with
      | some other => value.same other
      | none => false) && sameEntries rest doc

end

def Document.same (a b : Document) : Bool :=
  a.length == b.length && sameEntries a b

end FilterQuery
