import FilterQuery.Pattern.Basic

/-!
Matching by trying the ways of a pattern in order. A way is tried together with all that has to
follow it, so the first way that leads to the end is the match.
-/
namespace FilterQuery

/-- A stretch of text under a name: the first `length` characters of the text from its start on. -/
structure Capture where
  name : String
  start : List Char
  length : Nat
deriving DecidableEq, Repr

def Capture.text (c : Capture) : List Char :=
  c.start.take c.length

abbrev Captures := List Capture

namespace Captures

def get? : Captures → String → Option (List Char)
  | [], _ => none
  | c :: rest, name => if c.name = name then some c.text else get? rest name

end Captures

/-- A position in a text: how many characters lie before it, what follows, and what has been
remembered on the way. -/
structure Position where
  offset : Nat
  rest : List Char
  captures : Captures

namespace Pattern

abbrev Goal := Position → Option Captures

/-- Further rounds of a repetition after one round has ended. A round that does not move on is not
repeated. The first argument bounds the number of rounds. -/
def rounds (greedy : Bool) (round : Position → Goal → Option Captures) (goal : Goal) :
    Nat → Position → Option Captures
  | 0, here => goal here
  | n + 1, here =>
    let again := fun _ : Unit => round here fun next =>
      if here.offset < next.offset then rounds greedy round goal n next else none
    if greedy then again () <|> goal here else goal here <|> again ()

/-- Matches a pattern at a position and then what has to follow it. -/
def run : Pattern → Position → Goal → Option Captures
  | empty, here, goal => goal here
  | one set, here, goal =>
    match here.rest with
    | c :: rest => if set.contains c then goal ⟨here.offset + 1, rest, here.captures⟩ else none
    | [] => none
  | start, here, goal => if here.offset == 0 then goal here else none
  | finish, here, goal => if here.rest.isEmpty then goal here else none
  | seq p q, here, goal => p.run here fun next => q.run next goal
  | choice p q, here, goal => p.run here goal <|> q.run here goal
  | many greedy p, here, goal =>
    p.run here fun next =>
      if here.offset < next.offset then
        rounds greedy p.run goal next.rest.length next
      else
        goal next
  | capture name p, here, goal =>
    p.run here fun next =>
      goal { next with captures := ⟨name, here.rest, next.offset - here.offset⟩ :: next.captures }

def matchAt? (p : Pattern) (offset : Nat) (rest : List Char) : Option Captures :=
  p.run ⟨offset, rest, []⟩ fun here => some here.captures

def search (p : Pattern) (offset : Nat) : List Char → Option Captures
  | [] => p.matchAt? offset []
  | c :: rest => p.matchAt? offset (c :: rest) <|> search p (offset + 1) rest

def match? (p : Pattern) (text : String) : Option Captures :=
  p.search 0 text.toList

def isMatch (p : Pattern) (text : String) : Bool :=
  (p.match? text).isSome

end Pattern
end FilterQuery
