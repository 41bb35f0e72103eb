import FilterQuery.Document.Basic
import FilterQuery.Text.Mark

/-!
Reading relaxed literals: bare keys, single-quoted strings, comments, trailing commas, hexadecimal
integers, and numbers with a point or a sign in front.
-/
namespace FilterQuery.Literal.Relaxed

open Text

def isLineEnd (c : Char) : Bool :=
  c == '\n' || c == '\r' || c == '\u2028' || c == '\u2029'

def spaceRuns : List Nat :=
  [32, 33, 160, 161, 5760, 5761, 8192, 8203, 8239, 8240, 8287, 8288, 12288, 12289]

def isSpace (c : Char) : Bool :=
  c == '\t' || c == '\x0b' || c == '\x0c' || c == '\ufeff' || within spaceRuns c || isLineEnd c

inductive Place where
  | token
  | line
  | block

/-- Drops blanks and comments. A comment that is never closed is no comment, so its text stays: the
second argument is the text from the start of the open comment on. -/
def skipFrom : Place → List Char → List Char → List Char
  | .token, _, '/' :: '/' :: rest => skipFrom .line [] rest
  | .token, _, '/' :: '*' :: rest => skipFrom .block ('/' :: '*' :: rest) rest
  | .token, kept, c :: rest => if isSpace c then skipFrom .token kept rest else c :: rest
  | .line, kept, c :: rest =>
    if isLineEnd c then skipFrom .token kept rest else skipFrom .line kept rest
  | .block, _, '*' :: '/' :: rest => skipFrom .token [] rest
  | .block, kept, _ :: rest => skipFrom .block kept rest
  | .block, kept, [] => kept
  | _, _, [] => []

def skip (cs : List Char) : List Char :=
  skipFrom .token [] cs

inductive Component where
  | char (c : Char)
  | code (n : Nat)

/-- The character of a pair of surrogates. The high part is joined by bitwise or with the low part
plus `0x10000`. -/
def joinSurrogates? (high low : Nat) : Option Char :=
  scalar? (((high - 0xD800) <<< 10) ||| ((low - 0xDC00) + 0x10000))

/-- The text that components write. A high surrogate and the low one right after it are one
character; any other surrogate is an error. -/
def text? : List Component → Option (List Char)
  | [] => some []
  | .char c :: rest => (text? rest).map (c :: ·)
  | [.code n] => (scalar? n).map fun c => [c]
  | .code n :: .char d :: rest =>
    (scalar? n).bind fun c => (text? rest).map fun cs => c :: d :: cs
  | .code n :: .code m :: rest =>
    if 0xD800 ≤ n && n < 0xDC00 then
      if 0xDC00 ≤ m && m < 0xE000 then
        (joinSurrogates? n m).bind fun c => (text? rest).map (c :: ·)
      else none
    else
      (scalar? n).bind fun c => (text? (.code m :: rest)).map (c :: ·)

def escape (c : Char) : Char :=
  match c with
  | 'b' => '\x08'
  | 'f' => '\x0c'
  | 'n' => '\n'
  | 'r' => '\r'
  | 't' => '\t'
  | 'v' => '\x0b'
  | c => c

/-- Reads the components of a string up to its closing quote. A backslash before a line end joins the
lines. -/
def readComponents? (quote : Char) : List Char → Option (List Component × List Char)
  | [] => none
  | '\\' :: '\r' :: '\n' :: rest => readComponents? quote rest
  | '\\' :: 'u' :: a :: b :: c :: d :: rest =>
    match hexValue? [a, b, c, d] with
    | some n => (readComponents? quote rest).map fun (cs, rest) => (.code n :: cs, rest)
    | none => none
  | '\\' :: 'x' :: a :: b :: rest =>
    match hexValue? [a, b] with
    | some n => (readComponents? quote rest).map fun (cs, rest) => (.char (Char.ofNat n) :: cs, rest)
    | none => none
  | '\\' :: c :: rest =>
    if isLineEnd c then readComponents? quote rest
    else if c == '0' then
      (readComponents? quote rest).map fun (cs, rest) => (.char '\x00' :: cs, rest)
    else if isDigit c || c == 'x' || c == 'u' then none
    else (readComponents? quote rest).map fun (cs, rest) => (.char (escape c) :: cs, rest)
  | c :: rest =>
    if c == quote then some ([], rest)
    else if c == '\\' || isLineEnd c then none
    else (readComponents? quote rest).map fun (cs, rest) => (.char c :: cs, rest)

def readString? (quote : Char) (cs : List Char) : Option (String × List Char) :=
  (readComponents? quote cs).bind fun (components, rest) =>
    (text? components).map fun text => (String.ofList text, rest)

/-- The longest run of components of an identifier. The first one may not be a mark or a digit. -/
def identifierComponents (first : Bool) : List Char → List Component × List Char
  | '\\' :: 'u' :: a :: b :: c :: d :: rest =>
    match hexValue? [a, b, c, d] with
    | some n =>
      let (cs, rest) := identifierComponents false rest
      (.code n :: cs, rest)
    | none => ([], '\\' :: 'u' :: a :: b :: c :: d :: rest)
  | c :: rest =>
    if startsIdentifier c || (!first && continuesIdentifier c) then
      let (cs, rest) := identifierComponents false rest
      (.char c :: cs, rest)
    else
      ([], c :: rest)
  | [] => ([], [])

def readKey? : List Char → Option (String × List Char)
  | '"' :: rest => readString? '"' rest
  | '\'' :: rest => readString? '\'' rest
  | cs =>
    let (components, rest) := identifierComponents true cs
    if components.isEmpty then none
    else (text? components).map fun text => (String.ofList text, rest)

def maxHex : Nat := Nat.pow 2 32 - 1

/-- A decimal integer of 64 bits with its sign. Zero has no sign. -/
def integer? (negative : Bool) (digits : List Char) : Option Value :=
  let n := decimalValue digits
  if n < Nat.pow 2 63 || (negative && n == Nat.pow 2 63) then
    some (.number (Number.ofInt (if negative then -n else n)))
  else none

def fraction? (negative : Bool) (digits : Nat) (exponent : Int) : Option Value :=
  let x := Decimal.toNumber ⟨negative, digits, exponent⟩
  if x.isFinite then some (.number x) else none

/-- Reads an exponent. Without digits there is none, and its mark is left unread. -/
def readExponent? : List Char → Option (Int × List Char)
  | c :: rest =>
    if c == 'e' || c == 'E' then
      let (negative, rest) := Decimal.splitSign rest
      let (digits, rest) := rest.span isDigit
      if digits.isEmpty then none
      else
        let n : Int := decimalValue digits
        some (if negative then -n else n, rest)
    else none
  | [] => none

def readDecimal? (negative : Bool) (cs : List Char) : Option (Value × List Char) :=
  let (whole, rest) := match cs with
    | '0' :: rest => (['0'], rest)
    | cs => cs.span isDigit
  match rest with
  | '.' :: decimals =>
    let (fraction, rest) := decimals.span isDigit
    if whole.isEmpty && fraction.isEmpty then none
    else
      let (e, rest) := (readExponent? rest).getD (0, rest)
      (fraction? negative (decimalValue (whole ++ fraction)) (e - fraction.length)).map (·, rest)
  | rest =>
    if whole.isEmpty then none
    else
      match readExponent? rest with
      | some (e, rest) => (fraction? negative (decimalValue whole) e).map (·, rest)
      | none => (integer? negative whole).map (·, rest)

def readHex? (cs : List Char) : Option (Value × List Char) :=
  let (digits, rest) := cs.span fun c => (hexDigit? c).isSome
  match hexValue? digits with
  | some n =>
    if digits.isEmpty || maxHex < n then none else some (.number (Number.ofNat n), rest)
  | none => none

/-- Reads a number. Infinities and what is not a number become `null`; hexadecimal integers take no
sign, and neither of the named values takes a plus. -/
def readNumber? : List Char → Option (Value × List Char)
  | '0' :: 'x' :: rest => readHex? rest
  | '0' :: 'X' :: rest => readHex? rest
  | 'I' :: 'n' :: 'f' :: 'i' :: 'n' :: 'i' :: 't' :: 'y' :: rest => some (.null, rest)
  | 'N' :: 'a' :: 'N' :: rest => some (.null, rest)
  | '-' :: 'I' :: 'n' :: 'f' :: 'i' :: 'n' :: 'i' :: 't' :: 'y' :: rest => some (.null, rest)
  | '-' :: 'N' :: 'a' :: 'N' :: rest => some (.null, rest)
  | cs =>
    let (negative, rest) := Decimal.splitSign cs
    readDecimal? negative rest

mutual

def readValue? : Nat → List Char → Option (Value × List Char)
  | 0, _ => none
  | fuel + 1, cs =>
    match skip cs with
    | 'n' :: 'u' :: 'l' :: 'l' :: rest => some (.null, rest)
    | 't' :: 'r' :: 'u' :: 'e' :: rest => some (.bool true, rest)
    | 'f' :: 'a' :: 'l' :: 's' :: 'e' :: rest => some (.bool false, rest)
    | '"' :: rest => (readString? '"' rest).map fun (s, rest) => (.string s, rest)
    | '\'' :: rest => (readString? '\'' rest).map fun (s, rest) => (.string s, rest)
    | '[' :: rest =>
      match skip rest with
      | ']' :: rest => some (.array [], rest)
      | rest => (readItems? fuel rest).map fun (items, rest) => (.array items, rest)
    | '\x7b' :: rest =>
      match skip rest with
      | '\x7d' :: rest => some (.object [], rest)
      | rest => (readEntries? fuel rest).map fun (entries, rest) =>
        (.object (Document.ofEntries entries), rest)
    | rest => readNumber? rest

def readItems? : Nat → List Char → Option (List Value × List Char)
  | 0, _ => none
  | fuel + 1, cs =>
    match readValue? fuel cs with
    | none => none
    | some (item, rest) =>
      match skip rest with
      | ',' :: rest =>
        match skip rest with
        | ']' :: rest => some ([item], rest)
        | rest => (readItems? fuel rest).map fun (items, rest) => (item :: items, rest)
      | ']' :: rest => some ([item], rest)
      | _ => none

def readEntries? : Nat → List Char → Option (List (String × Value) × List Char)
  | 0, _ => none
  | fuel + 1, cs =>
    match readKey? (skip cs) with
    | none => none
    | some (key, rest) =>
      match skip rest with
      | ':' :: rest =>
        match readValue? fuel rest with
        | none => none
        | some (value, rest) =>
          match skip rest with
          | ',' :: rest =>
            match skip rest with
            | '\x7d' :: rest => some ([(key, value)], rest)
            | rest =>
              (readEntries? fuel rest).map fun (entries, rest) => ((key, value) :: entries, rest)
          | '\x7d' :: rest => some ([(key, value)], rest)
          | _ => none
      | _ => none

end

def read? (cs : List Char) : Option Value :=
  match readValue? (2 * cs.length + 2) cs with
  | some (value, rest) => if (skip rest).isEmpty then some value else none
  | none => none

end FilterQuery.Literal.Relaxed
