import FilterQuery.Text.Blank
import FilterQuery.Text.CaseFold
import FilterQuery.Text.Mark

/-!
Patterns that texts are matched against, and the sets of characters they are made of.
-/
namespace FilterQuery

open Text

/-- A set of characters. `anyCase s` holds all that differ from one of `s` at most in case. -/
inductive CharSet where
  | empty
  | range (first last : Char)
  | blank
  | digit
  | word
  | union (s t : CharSet)
  | complement (s : CharSet)
  | anyCase (s : CharSet)
deriving DecidableEq, Repr

namespace CharSet

def single (c : Char) : CharSet := .range c c

def contains : CharSet → Char → Bool
  | empty, _ => false
  | range first last, c => first ≤ c && c ≤ last
  | blank, c => isBlank c
  | digit, c => isDecimalDigit c
  | word, c => isWordChar c
  | union s t, c => s.contains c || t.contains c
  | complement s, c => !s.contains c
  | anyCase s, c => (caseVariants c).any s.contains

def notLineFeed : CharSet := .complement (.single '\n')

def all : CharSet := .complement .empty

end CharSet

/-- A pattern. Of two ways to match, the one that stands first is tried first: the left side of a
choice, and one more round of a greedy repetition. `many` asks for at least one round. -/
inductive Pattern where
  | empty
  | one (set : CharSet)
  | start
  | finish
  | seq (p q : Pattern)
  | choice (p q : Pattern)
  | many (greedy : Bool) (p : Pattern)
  | capture (name : String) (p : Pattern)
deriving DecidableEq, Repr

namespace Pattern

def optional (greedy : Bool) (p : Pattern) : Pattern :=
  if greedy then .choice p .empty else .choice .empty p

def star (greedy : Bool) (p : Pattern) : Pattern :=
  optional greedy (.many greedy p)

def times (p : Pattern) : Nat → Pattern
  | 0 => .empty
  | 1 => p
  | n + 1 => .seq p (times p n)

def atMost (greedy : Bool) (p : Pattern) : Nat → Pattern
  | 0 => .empty
  | n + 1 => optional greedy (.seq p (atMost greedy p n))

def text : List Char → Pattern
  | [] => .empty
  | [c] => .one (.single c)
  | c :: rest => .seq (.one (.single c)) (text rest)

end Pattern
end FilterQuery
