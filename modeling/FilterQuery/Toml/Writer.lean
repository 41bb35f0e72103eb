import FilterQuery.Text.Digit
import FilterQuery.Toml.Basic

/-!
Writing entries. A string is written in the plainest of the four quoted forms that can hold it.
-/
namespace FilterQuery.Toml

open Text

def needsCode (c : Char) : Bool :=
  (c < ' ' && c != '\t' && c != '\n') || c == '\x7f'

/-- The longest row of a character in a text; the second argument is the length of the row that ends
where the text starts. -/
def longestRow (mark : Char) : Nat → List Char → Nat
  | row, [] => row
  | row, c :: rest =>
    if c == mark then longestRow mark (row + 1) rest else max row (longestRow mark 0 rest)

inductive Form where
  | basic
  | literal
  | multilineBasic
  | multilineLiteral
deriving DecidableEq, Repr

/-- The first form that holds a text without escapes, or else a form with escapes. -/
def Form.of (cs : List Char) : Form :=
  let coded := cs.any needsCode
  let lines := cs.contains '\n'
  if !coded && !lines && !cs.contains '"' && !cs.contains '\\' then .basic
  else if !coded && !lines && !cs.contains '\'' then .literal
  else if !coded && !cs.contains '\\' && longestRow '"' 0 cs ≤ 2 then .multilineBasic
  else if !coded && longestRow '\'' 0 cs ≤ 2 then .multilineLiteral
  else if lines then .multilineBasic
  else .basic

def escapeChar (multiline : Bool) (c : Char) : List Char :=
  if c == '\x08' then ['\\', 'b']
  else if c == '\t' then ['\\', 't']
  else if c == '\x0c' then ['\\', 'f']
  else if c == '\r' then ['\\', 'r']
  else if c == '\\' then ['\\', '\\']
  else if c == '\n' then if multiline then [c] else ['\\', 'n']
  else if needsCode c then '\\' :: 'u' :: (hexPadded 4 c.toNat).map Char.toUpper
  else [c]

/-- The characters of a string in a form with escapes. On several lines up to two quotes in a row stand
as they are and the next one is escaped; the second argument counts the bare quotes right before. -/
def escapeAll (multiline : Bool) : Nat → List Char → List Char
  | _, [] => []
  | row, c :: rest =>
    if c == '"' then
      if multiline && row < 2 then c :: escapeAll multiline (row + 1) rest
      else '\\' :: c :: escapeAll multiline 0 rest
    else
      escapeChar multiline c ++ escapeAll multiline 0 rest

/-- A line feed after the opening quotes of a text with several lines, which readers drop. -/
def leadingLine (cs : List Char) : List Char :=
  if cs.contains '\n' then ['\n'] else []

def writeString (cs : List Char) : List Char :=
  match Form.of cs with
  | .basic => ['"'] ++ escapeAll false 0 cs ++ ['"']
  | .literal => ['\''] ++ cs ++ ['\'']
  | .multilineBasic =>
    ['"', '"', '"'] ++ leadingLine cs ++ escapeAll true 0 cs ++ ['"', '"', '"']
  | .multilineLiteral => ['\'', '\'', '\''] ++ leadingLine cs ++ cs ++ ['\'', '\'', '\'']

def writeScalar : Scalar → List Char
  | .bool true => "true".toList
  | .bool false => "false".toList
  | .string s => writeString s.toList

def write (entries : List Entry) : List Char :=
  entries.flatMap fun (key, value) => key.toList ++ " = ".toList ++ writeScalar value ++ ['\n']

end FilterQuery.Toml
