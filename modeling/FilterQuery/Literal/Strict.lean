import FilterQuery.Document.Basic

/-!
Reading strict literals: the JSON grammar, with double-quoted keys and strings, and no comments or
trailing commas.
-/
namespace FilterQuery.Literal.Strict

open Text

def isSpace (c : Char) : Bool :=
  c == ' ' || c == '\t' || c == '\n' || c == '\r'

def skip (cs : List Char) : List Char :=
  cs.dropWhile isSpace

def escape? : Char → Option Char
  | '"' => some '"'
  | '\\' => some '\\'
  | '/' => some '/'
  | 'b' => some '\x08'
  | 'f' => some '\x0c'
  | 'n' => some '\n'
  | 'r' => some '\r'
  | 't' => some '\t'
  | _ => none

def joinSurrogates (high low : Nat) : Char :=
  Char.ofNat (0x10000 + (high - 0xD800) * 0x400 + (low - 0xDC00))

def readString? : List Char → Option (List Char × List Char)
  | [] => none
  | '"' :: rest => some ([], rest)
  | '\\' :: 'u' :: a :: b :: c :: d :: rest =>
    match hexValue? [a, b, c, d] with
    | none => none
    | some high =>
      if 0xD800 ≤ high && high < 0xDC00 then
        match rest with
        | '\\' :: 'u' :: e :: f :: g :: h :: rest =>
          match hexValue? [e, f, g, h] with
          | some low =>
            if 0xDC00 ≤ low && low < 0xE000 then
              (readString? rest).map fun (cs, rest) => (joinSurrogates high low :: cs, rest)
            else none
          | none => none
        | _ => none
      else
        (scalar? high).bind fun ch => (readString? rest).map fun (cs, rest) => (ch :: cs, rest)
  | '\\' :: c :: rest =>
    (escape? c).bind fun ch => (readString? rest).map fun (cs, rest) => (ch :: cs, rest)
  | c :: rest =>
    if c < ' ' || c == '\\' then none
    else (readString? rest).map fun (cs, rest) => (c :: cs, rest)

def maxSignificand : Nat := Nat.pow 2 64 - 1

/-- Appends digits to a significand as long as it fits, and tells how many were appended. -/
def appendDigits (significand : Nat) : List Char → Nat × Nat
  | [] => (significand, 0)
  | c :: rest =>
    let next := significand * 10 + digitValue c
    if next ≤ maxSignificand then
      let (n, count) := appendDigits next rest
      (n, count + 1)
    else
      (significand, 0)

/-- A double that is not negative times a power of ten, in steps that round: the largest power in one
step is `10 ^ 308`. A product beyond the largest double has no value. -/
def scale? (x : Number) (exponent : Int) : Option Number :=
  let power (e : Nat) := Number.ofNat (Nat.pow 10 e)
  if x.isZero || exponent == 0 then some x
  else if 308 < exponent then none
  else if 0 ≤ exponent then some (x.mul (power exponent.toNat)) |>.filter Number.isFinite
  else if -308 ≤ exponent then some (x.div (power (-exponent).toNat))
  else if -616 ≤ exponent then some ((x.div (power 308)).div (power (-exponent - 308).toNat))
  else some (Number.zero false)

/-- The number with the given whole digits, decimals and exponent. Digits that do not fit into the
significand are dropped; dropped whole digits count for the exponent. -/
def number? (negative : Bool) (whole fraction : List Char) (exponent : Int) : Option Number :=
  let (n, kept) := appendDigits 0 whole
  let (n, places) := appendDigits n fraction
  let e := exponent + (whole.length - kept : Nat) - places
  (scale? (Number.ofNat n) e).map fun x => { x with negative }

def readExponent? : List Char → Option (Int × List Char)
  | c :: rest =>
    if c == 'e' || c == 'E' then
      let (negative, rest) := Decimal.splitSign rest
      let (digits, rest) := rest.span isDigit
      if digits.isEmpty then none
      else
        let n : Int := decimalValue digits
        some (if negative then -n else n, rest)
    else
      some (0, c :: rest)
  | [] => some (0, [])

def readFraction? : List Char → Option (List Char × List Char)
  | '.' :: rest =>
    let (digits, rest) := rest.span isDigit
    if digits.isEmpty then none else some (digits, rest)
  | rest => some ([], rest)

def readNumber? (cs : List Char) : Option (Number × List Char) :=
  let (negative, cs) := match cs with
    | '-' :: rest => (true, rest)
    | rest => (false, rest)
  let (whole, cs) := cs.span isDigit
  if whole.isEmpty || (1 < whole.length && whole.head? == some '0') then none
  else do
    let (fraction, cs) ← readFraction? cs
    let (exponent, cs) ← readExponent? cs
    let n ← number? negative whole fraction exponent
    some (n, cs)

mutual

/-- Reads a value. The second argument is how many more containers may be entered. -/
def readValue? : Nat → Nat → List Char → Option (Value × List Char)
  | 0, _, _ => none
  | fuel + 1, room, cs =>
    match skip cs with
    | 'n' :: 'u' :: 'l' :: 'l' :: rest => some (.null, rest)
    | 't' :: 'r' :: 'u' :: 'e' :: rest => some (.bool true, rest)
    | 'f' :: 'a' :: 'l' :: 's' :: 'e' :: rest => some (.bool false, rest)
    | '"' :: rest => (readString? rest).map fun (s, rest) => (.string (String.ofList s), rest)
    | '[' :: rest =>
      match room with
      | 0 => none
      | room + 1 =>
        match skip rest with
        | ']' :: rest => some (.array [], rest)
        | rest => (readItems? fuel room rest).map fun (items, rest) => (.array items, rest)
    | '\x7b' :: rest =>
      match room with
      | 0 => none
      | room + 1 =>
        match skip rest with
        | '\x7d' :: rest => some (.object [], rest)
        | rest => (readEntries? fuel room rest).map fun (entries, rest) =>
          (.object (Document.ofEntries entries), rest)
    | rest => (readNumber? rest).map fun (n, rest) => (.number n, rest)

def readItems? : Nat → Nat → List Char → Option (List Value × List Char)
  | 0, _, _ => none
  | fuel + 1, room, cs =>
    match readValue? fuel room cs with
    | none => none
    | some (item, rest) =>
      match skip rest with
      | ',' :: rest => (readItems? fuel room rest).map fun (items, rest) => (item :: items, rest)
      | ']' :: rest => some ([item], rest)
      | _ => none

def readEntries? : Nat → Nat → List Char → Option (List (String × Value) × List Char)
  | 0, _, _ => none
  | fuel + 1, room, cs =>
    match skip cs with
    | '"' :: rest =>
      match readString? rest with
      | none => none
      | some (key, rest) =>
        match skip rest with
        | ':' :: rest =>
          match readValue? fuel room rest with
          | none => none
          | some (value, rest) =>
            let entry := (String.ofList key, value)
            match skip rest with
            | ',' :: rest =>
              (readEntries? fuel room rest).map fun (entries, rest) => (entry :: entries, rest)
            | '\x7d' :: rest => some ([entry], rest)
            | _ => none
        | _ => none
    | _ => none

end

def maxDepth : Nat := 127

def readWithin? (depth : Nat) (cs : List Char) : Option Value :=
  match readValue? (2 * cs.length + 2) depth cs with
  | some (value, rest) => if (skip rest).isEmpty then some value else none
  | none => none

def read? (cs : List Char) : Option Value :=
  readWithin? maxDepth cs

end FilterQuery.Literal.Strict
