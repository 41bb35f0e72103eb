import FilterQuery.Text.Blank
import FilterQuery.Text.Numeral
import FilterQuery.Value

/-!
Fields of delimited text. Single quotes protect separators, a backslash protects one quote, backslash
or separator, and the quotes around an assigned value are dropped once its field is cut out.
-/
namespace FilterQuery.Field

open Text

def quote : Char := '\''

def escape : Char := '\\'

def assign : Char := '='

/-- One unit of delimited text: a character as it stands, or a protected one. -/
inductive Symbol where
  | plain (c : Char)
  | escaped (c : Char)
deriving DecidableEq, Repr

namespace Symbol

def lead : Symbol → Char
  | plain c => c
  | escaped _ => escape

end Symbol

/-- Only these characters can be protected by a backslash; before others it stands for itself. -/
def isEscapable (separator c : Char) : Bool :=
  c == quote || c == escape || c == separator

def symbols (separator : Char) : List Char → List Symbol
  | [] => []
  | [c] => [.plain c]
  | c :: d :: rest =>
    if c == escape && isEscapable separator d then .escaped d :: symbols separator rest
    else .plain c :: symbols separator (d :: rest)

/-- A quote closes a section if only blanks stand between it and a separator or the end. -/
def closes (separator : Char) (after : List Symbol) : Bool :=
  match after.dropWhile fun s => isBlank s.lead with
  | [] => true
  | s :: _ => s.lead == separator

def hasClosing (separator : Char) : List Symbol → Bool
  | [] => false
  | s :: rest => (s == .plain quote && closes separator rest) || hasClosing separator rest

/-- A quote opens a section at the start of a field and after punctuation, but not inside a word. -/
def opens (field : List Char) : Bool :=
  match (trimEnd field).getLast? with
  | some c => !isAlphanumeric c
  | none => true

/-- Whether the scan stands outside quotes, or inside quotes that are dropped or kept. -/
inductive Mode where
  | outside
  | dropped
  | kept
deriving DecidableEq, Repr

/-- Cuts symbols into raw fields; the list of characters is the current field so far. Quotes at the
start of a field are dropped; elsewhere they stay in it. -/
def scan (separator : Char) : Mode → List Char → List Symbol → List (List Char)
  | _, field, [] => [field]
  | mode, field, .escaped c :: rest => scan separator mode (field ++ [c]) rest
  | .outside, field, .plain c :: rest =>
    if c == escape then scan separator .outside (field ++ [c]) rest
    else if c == quote && opens field && hasClosing separator rest then
      if (trim field).isEmpty then scan separator .dropped field rest
      else scan separator .kept (field ++ [c]) rest
    else if c == separator then field :: scan separator .outside [] rest
    else scan separator .outside (field ++ [c]) rest
  | .dropped, field, .plain c :: rest =>
    if c == quote && closes separator rest then scan separator .outside field rest
    else scan separator .dropped (field ++ [c]) rest
  | .kept, field, .plain c :: rest =>
    if c == quote && closes separator rest then scan separator .outside (field ++ [c]) rest
    else scan separator .kept (field ++ [c]) rest

def lastAssignment? : List Char → Option (List Char × List Char)
  | [] => none
  | c :: rest =>
    match lastAssignment? rest with
    | some (key, value) => some (c :: key, value)
    | none =>
      match rest with
      | d :: value => if c == assign && d == quote then some ([], value) else none
      | [] => none

def dropQuotes (field : List Char) : List Char :=
  if field.getLast? == some quote then
    match lastAssignment? field.dropLast with
    | some (key, value) => key ++ assign :: value
    | none => field
  else
    field

/-- A field as it is handed on: trimmed, and without quotes around an assigned value. -/
def finish (raw : List Char) : List Char :=
  dropQuotes (trim raw)

def split (separator : Char) (text : String) : List String :=
  (scan separator .outside [] (symbols separator text.toList)).map fun raw =>
    String.ofList (finish raw)

def values (separator : Char) (text : String) : List Value :=
  (split separator text).map Value.guess

end FilterQuery.Field
