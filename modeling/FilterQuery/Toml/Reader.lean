import FilterQuery.Text.Digit
import FilterQuery.Toml.Basic

/-!
Reading entries: bare or quoted keys, truth values and the four forms of strings, with comments and
blank lines between the lines. Tables, arrays, numbers and dates are not read.
-/
namespace FilterQuery.Toml

open Text

def isSpace (c : Char) : Bool :=
  c == ' ' || c == '\t'

def isAllowed (c : Char) : Bool :=
  c == '\t' || (' ' ≤ c && c != '\x7f')

def skip (cs : List Char) : List Char :=
  cs.dropWhile isSpace

def afterLineEnd? : List Char → Option (List Char)
  | '\n' :: rest => some rest
  | '\r' :: '\n' :: rest => some rest
  | _ => none

def endLine? (cs : List Char) : Option (List Char) :=
  let rest := match skip cs with
    | '#' :: rest => rest.dropWhile isAllowed
    | rest => rest
  if rest.isEmpty then some [] else afterLineEnd? rest

/-! ### Strings -/

def escape? : Char → Option Char
  | 'b' => some '\x08'
  | 't' => some '\t'
  | 'n' => some '\n'
  | 'f' => some '\x0c'
  | 'r' => some '\r'
  | '"' => some '"'
  | '\\' => some '\\'
  | _ => none

def coded? (digits : List Char) : Option Char :=
  (hexValue? digits).bind scalar?

def push (c : Char) (r : Option (List Char × List Char)) : Option (List Char × List Char) :=
  r.map fun (cs, rest) => (c :: cs, rest)

def readBasic? : List Char → Option (List Char × List Char)
  | [] => none
  | '"' :: rest => some ([], rest)
  | '\\' :: 'u' :: a :: b :: c :: d :: rest =>
    (coded? [a, b, c, d]).bind fun ch => push ch (readBasic? rest)
  | '\\' :: 'U' :: a :: b :: c :: d :: e :: f :: g :: h :: rest =>
    (coded? [a, b, c, d, e, f, g, h]).bind fun ch => push ch (readBasic? rest)
  | '\\' :: c :: rest => (escape? c).bind fun ch => push ch (readBasic? rest)
  | c :: rest => if isAllowed c && c != '\\' then push c (readBasic? rest) else none

def readLiteral? : List Char → Option (List Char × List Char)
  | [] => none
  | '\'' :: rest => some ([], rest)
  | c :: rest => if isAllowed c then push c (readLiteral? rest) else none

def endsBlank (cs : List Char) : Bool :=
  (afterLineEnd? (skip cs)).isSome

/-- Reads the rest of a string with escapes on several lines. A backslash at the end of a line drops
it with all blanks and line ends that follow; the first argument tells that they are being dropped.
Up to two quotes may stand right before the closing ones. -/
def readMultilineBasic? : Bool → List Char → Option (List Char × List Char)
  | _, [] => none
  | _, '"' :: '"' :: '"' :: '"' :: '"' :: rest => some (['"', '"'], rest)
  | _, '"' :: '"' :: '"' :: '"' :: rest => some (['"'], rest)
  | _, '"' :: '"' :: '"' :: rest => some ([], rest)
  | _, '\\' :: 'u' :: a :: b :: c :: d :: rest =>
    (coded? [a, b, c, d]).bind fun ch => push ch (readMultilineBasic? false rest)
  | _, '\\' :: 'U' :: a :: b :: c :: d :: e :: f :: g :: h :: rest =>
    (coded? [a, b, c, d, e, f, g, h]).bind fun ch => push ch (readMultilineBasic? false rest)
  | _, '\\' :: c :: rest =>
    if endsBlank (c :: rest) then readMultilineBasic? true (c :: rest)
    else (escape? c).bind fun ch => push ch (readMultilineBasic? false rest)
  | dropping, '\r' :: '\n' :: rest =>
    if dropping then readMultilineBasic? true rest
    else push '\n' (readMultilineBasic? false rest)
  | dropping, c :: rest =>
    if dropping && (isSpace c || c == '\n') then readMultilineBasic? true rest
    else if c == '\n' || (isAllowed c && c != '\\') then push c (readMultilineBasic? false rest)
    else none

def readMultilineLiteral? : List Char → Option (List Char × List Char)
  | [] => none
  | '\'' :: '\'' :: '\'' :: '\'' :: '\'' :: rest => some (['\'', '\''], rest)
  | '\'' :: '\'' :: '\'' :: '\'' :: rest => some (['\''], rest)
  | '\'' :: '\'' :: '\'' :: rest => some ([], rest)
  | '\r' :: '\n' :: rest => push '\n' (readMultilineLiteral? rest)
  | c :: rest =>
    if c == '\n' || isAllowed c then push c (readMultilineLiteral? rest) else none

def dropLineEnd (cs : List Char) : List Char :=
  (afterLineEnd? cs).getD cs

def readString? : List Char → Option (List Char × List Char)
  | '"' :: '"' :: '"' :: rest => readMultilineBasic? false (dropLineEnd rest)
  | '"' :: rest => readBasic? rest
  | '\'' :: '\'' :: '\'' :: rest => readMultilineLiteral? (dropLineEnd rest)
  | '\'' :: rest => readLiteral? rest
  | _ => none

/-! ### Entries -/

def isBare (c : Char) : Bool :=
  c.isAlphanum || c == '_' || c == '-'

def readKey? : List Char → Option (List Char × List Char)
  | '"' :: rest => readBasic? rest
  | '\'' :: rest => readLiteral? rest
  | cs =>
    let (key, rest) := cs.span isBare
    if key.isEmpty then none else some (key, rest)

def readScalar? : List Char → Option (Scalar × List Char)
  | 't' :: 'r' :: 'u' :: 'e' :: rest => some (.bool true, rest)
  | 'f' :: 'a' :: 'l' :: 's' :: 'e' :: rest => some (.bool false, rest)
  | cs => (readString? cs).map fun (s, rest) => (.string (String.ofList s), rest)

def readEntry? (cs : List Char) : Option (Entry × List Char) :=
  match readKey? cs with
  | none => none
  | some (key, rest) =>
    match skip rest with
    | '=' :: rest =>
      match readScalar? (skip rest) with
      | none => none
      | some (value, rest) => (endLine? rest).map fun rest => ((String.ofList key, value), rest)
    | _ => none

def readLines? : Nat → List Char → Option (List Entry)
  | 0, _ => none
  | fuel + 1, cs =>
    match skip cs with
    | [] => some []
    | c :: rest =>
      match endLine? (c :: rest) with
      | some rest => readLines? fuel rest
      | none =>
        match readEntry? (c :: rest) with
        | some (entry, rest) => (readLines? fuel rest).map (entry :: ·)
        | none => none

def dropMark : List Char → List Char
  | '\ufeff' :: rest => rest
  | cs => cs

def read? (cs : List Char) : Option (List Entry) :=
  readLines? (cs.length + 1) (dropMark cs)

end FilterQuery.Toml
