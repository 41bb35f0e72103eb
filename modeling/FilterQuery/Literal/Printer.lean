import FilterQuery.Document.Basic
import FilterQuery.Number.Printer

/-!
The compact literal of a value. Undefined entries of objects are left out, and undefined items of
arrays are `null`.
-/
namespace FilterQuery

open Text

namespace Literal

/-- A character inside a quoted string. Only the quote, the backslash and the controls below the
space are escaped. -/
def stringChar (c : Char) : List Char :=
  if c == '"' || c == '\\' then ['\\', c]
  else if c == '\x08' then ['\\', 'b']
  else if c == '\x0c' then ['\\', 'f']
  else if c == '\n' then ['\\', 'n']
  else if c == '\r' then ['\\', 'r']
  else if c == '\t' then ['\\', 't']
  else if c < ' ' then '\\' :: 'u' :: hexPadded 4 c.toNat
  else [c]

def string (s : String) : List Char :=
  '"' :: s.toList.flatMap stringChar ++ ['"']

def commaSeparated : List (List Char) → List Char
  | [] => []
  | [text] => text
  | text :: rest => text ++ ',' :: commaSeparated rest

end Literal

mutual

def Value.literal : Value → List Char
  | .undefined => "null".toList
  | .null => "null".toList
  | .bool true => "true".toList
  | .bool false => "false".toList
  | .number n => n.literal
  | .string s => Literal.string s
  | .array items => '[' :: Literal.commaSeparated (itemLiterals items) ++ [']']
  | .object entries => '\x7b' :: Literal.commaSeparated (entryLiterals entries) ++ ['\x7d']

def itemLiterals : List Value → List (List Char)
  | [] => []
  | item :: rest => item.literal :: itemLiterals rest

/-- The literals of the entries of an object that are defined. -/
def entryLiterals : List (String × Value) → List (List Char)
  | [] => []
  | (key, value) :: rest =>
    if value.isUndefined then entryLiterals rest
    else (Literal.string key ++ ':' :: value.literal) :: entryLiterals rest

end

def Value.toText (value : Value) : String :=
  String.ofList value.literal

def Document.toText (doc : Document) : String :=
  (Value.object doc).toText

end FilterQuery
