import FilterQuery.Pattern.Basic
import FilterQuery.Text.Digit

/-!
Reading pattern sources.

The language is a part of the usual one:
* characters that stand for themselves, `.`, the anchors `^` and `$`, and the choice `|`;
* escaped punctuation, `\n`, `\t`, `\r`, `\f`, `\v`, `\a`, and the classes `\s`, `\d`, `\w` with their
  complements `\S`, `\D`, `\W`;
* classes in brackets with ranges, escapes, complements and classes inside them;
* the repetitions `*`, `+`, `?`, `{m}`, `{m,}` and `{m,n}`, each also lazy;
* groups `(…)`, `(?:…)`, `(?<name>…)` and `(?P<name>…)`, and the flags `i` and `s`, for the rest of the
  group they are set in or as `(?i:…)`.

Whatever else the usual language has is refused, never read in another sense: other escapes, among them
word boundaries and characters by code or property; named classes such as `[:alpha:]` and the
intersections and differences of classes; other flags. So is a source with a group or class that is
not closed, a repetition that has nothing to repeat or bounds the wrong way round, or one name or flag
twice. Sources may be of any size and depth.
-/
namespace FilterQuery.Pattern

open Text

structure Flags where
  anyCase : Bool
  dotAll : Bool

def Flags.apply (flags : Flags) (s : CharSet) : CharSet :=
  if flags.anyCase then .anyCase s else s

inductive Escaped where
  | char (c : Char)
  | set (s : CharSet)

def escaped? : Char → Option Escaped
  | 's' => some (.set .blank)
  | 'S' => some (.set (.complement .blank))
  | 'd' => some (.set .digit)
  | 'D' => some (.set (.complement .digit))
  | 'w' => some (.set .word)
  | 'W' => some (.set (.complement .word))
  | 'n' => some (.char '\n')
  | 't' => some (.char '\t')
  | 'r' => some (.char '\r')
  | 'f' => some (.char '\x0c')
  | 'v' => some (.char '\x0b')
  | 'a' => some (.char '\x07')
  | c =>
    if c.toNat < 128 && !c.isAlphanum && c != '<' && c != '>' then some (.char c) else none

/-! ### Classes -/

def readItem? : List Char → Option (Escaped × List Char)
  | '\\' :: c :: rest => (escaped? c).map (·, rest)
  | '\\' :: [] => none
  | c :: rest => some (.char c, rest)
  | [] => none

/-- Reads a character, a range of characters or an escape inside a class. A hyphen before the end of
the class or before another hyphen makes no range. -/
def readRange? (flags : Flags) (cs : List Char) : Option (CharSet × List Char) :=
  match readItem? cs with
  | none => none
  | some (.set s, '-' :: d :: rest) =>
    if d == ']' || d == '-' then some (s, '-' :: d :: rest) else none
  | some (.set s, rest) => some (s, rest)
  | some (.char c, '-' :: d :: rest) =>
    if d == ']' || d == '-' then some (flags.apply (.single c), '-' :: d :: rest)
    else
      match readItem? (d :: rest) with
      | some (.char last, rest) =>
        if c ≤ last then some (flags.apply (.range c last), rest) else none
      | _ => none
  | some (.char c, rest) => some (flags.apply (.single c), rest)

def readComplement : List Char → Bool × List Char
  | '^' :: rest => (true, rest)
  | rest => (false, rest)

def complementIf (complemented : Bool) (s : CharSet) : CharSet :=
  if complemented then .complement s else s

/-- Reads the items of a class up to its closing bracket, which stands for itself as the first item.
Operators between classes and named classes are refused. -/
def readItems? (flags : Flags) : Nat → Bool → List Char → Option (CharSet × List Char)
  | 0, _, _ => none
  | fuel + 1, first, cs =>
    let addTo (s : CharSet) (rest : List Char) :=
      (readItems? flags fuel false rest).map fun (t, rest) => (.union s t, rest)
    match cs with
    | ']' :: rest => if first then addTo (.single ']') rest else some (.empty, rest)
    | '&' :: '&' :: _ => none
    | '-' :: '-' :: _ => none
    | '~' :: '~' :: _ => none
    | '[' :: ':' :: _ => none
    | '[' :: rest =>
      let (complemented, rest) := readComplement rest
      match readItems? flags fuel true rest with
      | some (s, rest) => addTo (complementIf complemented s) rest
      | none => none
    | cs =>
      match readRange? flags cs with
      | some (s, rest) => addTo s rest
      | none => none

def readClass? (flags : Flags) (cs : List Char) : Option (CharSet × List Char) :=
  let (complemented, cs) := readComplement cs
  (readItems? flags (cs.length + 1) true cs).map fun (s, rest) => (complementIf complemented s, rest)

/-! ### Repetitions -/

def readLazy : List Char → Bool × List Char
  | '?' :: rest => (false, rest)
  | rest => (true, rest)

def maxCount : Nat := 100000

def readCount? (cs : List Char) : Option (Nat × List Char) :=
  let (digits, rest) := cs.span isDigit
  let n := decimalValue digits
  if digits.isEmpty || maxCount < n then none else some (n, rest)

def atLeast (greedy : Bool) (p : Pattern) : Nat → Pattern
  | 0 => star greedy p
  | 1 => .many greedy p
  | n + 1 => .seq (times p n) (.many greedy p)

def between (greedy : Bool) (p : Pattern) (least most : Nat) : Pattern :=
  .seq (times p least) (atMost greedy p (most - least))

def readCounted? (p : Pattern) (cs : List Char) : Option (Pattern × List Char) :=
  match readCount? cs with
  | some (n, '\x7d' :: rest) =>
    let (_, rest) := readLazy rest
    some (times p n, rest)
  | some (n, ',' :: '\x7d' :: rest) =>
    let (greedy, rest) := readLazy rest
    some (atLeast greedy p n, rest)
  | some (n, ',' :: rest) =>
    match readCount? rest with
    | some (m, '\x7d' :: rest) =>
      let (greedy, rest) := readLazy rest
      if n ≤ m then some (between greedy p n m, rest) else none
    | _ => none
  | _ => none

def readRepetitions? : Nat → Pattern → List Char → Option (Pattern × List Char)
  | 0, _, _ => none
  | fuel + 1, p, cs =>
    match cs with
    | '*' :: rest =>
      let (greedy, rest) := readLazy rest
      readRepetitions? fuel (star greedy p) rest
    | '+' :: rest =>
      let (greedy, rest) := readLazy rest
      readRepetitions? fuel (.many greedy p) rest
    | '?' :: rest =>
      let (greedy, rest) := readLazy rest
      readRepetitions? fuel (optional greedy p) rest
    | '\x7b' :: rest =>
      match readCounted? p rest with
      | some (p, rest) => readRepetitions? fuel p rest
      | none => none
    | cs => some (p, cs)

/-! ### Groups -/

/-- What follows an opening parenthesis: a group, named or not, with the flags that hold in it, or
flags for the rest of the group around it. -/
inductive Opening where
  | group (name : Option String) (flags : Flags)
  | flags (flags : Flags)

def isNameChar (c : Char) : Bool :=
  c == '_' || c == '.' || c == '[' || c == ']' || isAlphanumeric c

def readName? (names : List String) (cs : List Char) : Option (String × List Char) :=
  match cs.span isNameChar with
  | (c :: name, '>' :: rest) =>
    let name := String.ofList (c :: name)
    if (c == '_' || isAlphabetic c) && !names.contains name then some (name, rest) else none
  | _ => none

/-- Reads flags up to the colon of a group, or up to a closing parenthesis. The second argument tells
whether flags are being cleared, and the third whether one has been read. -/
def readFlags? (flags : Flags) (clear some? : Bool) : List Char → Option (Opening × List Char)
  | ':' :: rest => if clear && !some? then none else some (.group none flags, rest)
  | ')' :: rest => if some? then some (.flags flags, rest) else none
  | '-' :: rest => if clear then none else readFlags? flags true false rest
  | 'i' :: rest => readFlags? { flags with anyCase := !clear } clear true rest
  | 's' :: rest => readFlags? { flags with dotAll := !clear } clear true rest
  | _ => none

def readOpening? (flags : Flags) (names : List String) : List Char → Option (Opening × List Char)
  | '?' :: 'P' :: '<' :: rest =>
    (readName? names rest).map fun (name, rest) => (.group (some name) flags, rest)
  | '?' :: '<' :: rest =>
    (readName? names rest).map fun (name, rest) => (.group (some name) flags, rest)
  | '?' :: rest =>
    if (rest.takeWhile fun c => c != ':' && c != ')').Nodup then readFlags? flags false false rest
    else none
  | rest => some (.group none flags, rest)

def ofGroup (name : Option String) (p : Pattern) : Pattern :=
  match name with
  | some name => .capture name p
  | none => p

/-! ### Branches and choices -/

def followedBy (p q : Pattern) : Pattern :=
  match q with
  | .empty => p
  | q => .seq p q

def readAtom? (flags : Flags) : List Char → Option (Pattern × List Char)
  | '.' :: rest => some (.one (if flags.dotAll then .all else .notLineFeed), rest)
  | '^' :: rest => some (.start, rest)
  | '$' :: rest => some (.finish, rest)
  | '[' :: rest => (readClass? flags rest).map fun (s, rest) => (.one s, rest)
  | '\\' :: c :: rest =>
    match escaped? c with
    | some (.char c) => some (.one (flags.apply (.single c)), rest)
    | some (.set s) => some (.one s, rest)
    | none => none
  | '\\' :: [] => none
  | c :: rest =>
    if c == '*' || c == '+' || c == '?' || c == '\x7b' then none
    else some (.one (flags.apply (.single c)), rest)
  | [] => none

/-- A pattern with the flags and names in use after it and the rest of the source. -/
structure Read where
  pattern : Pattern
  flags : Flags
  names : List String
  rest : List Char

mutual

def readChoice? : Nat → Flags → List String → List Char → Option Read
  | 0, _, _, _ => none
  | fuel + 1, flags, names, cs =>
    match readBranch? fuel flags names cs with
    | some ⟨p, flags, names, '|' :: rest⟩ =>
      (readChoice? fuel flags names rest).map fun r => { r with pattern := .choice p r.pattern }
    | r => r

def readBranch? : Nat → Flags → List String → List Char → Option Read
  | 0, _, _, _ => none
  | fuel + 1, flags, names, cs =>
    let piece (p : Pattern) (names : List String) (rest : List Char) :=
      match readRepetitions? (rest.length + 1) p rest with
      | some (p, rest) =>
        (readBranch? fuel flags names rest).map fun r => { r with pattern := followedBy p r.pattern }
      | none => none
    match cs with
    | [] => some ⟨.empty, flags, names, []⟩
    | '|' :: rest => some ⟨.empty, flags, names, '|' :: rest⟩
    | ')' :: rest => some ⟨.empty, flags, names, ')' :: rest⟩
    | '(' :: rest =>
      match readOpening? flags names rest with
      | some (.flags flags, rest) => readBranch? fuel flags names rest
      | some (.group name inner, rest) =>
        match readChoice? fuel inner (name.toList ++ names) rest with
        | some ⟨p, _, names, ')' :: rest⟩ => piece (ofGroup name p) names rest
        | _ => none
      | none => none
    | cs =>
      match readAtom? flags cs with
      | some (p, rest) => piece p names rest
      | none => none

end

def parse? (source : String) : Option Pattern :=
  let cs := source.toList
  match readChoice? (3 * cs.length + 3) ⟨false, false⟩ [] cs with
  | some ⟨p, _, _, []⟩ => some p
  | _ => none

end FilterQuery.Pattern
