import FilterQuery.Number.Basic
import FilterQuery.Text.Digit

/-!
The shortest decimal that still names a double.

The reals that read as a given finite double form an interval, whose ends belong to it exactly if the
significand is even. On each decimal grid, from the coarsest with one digit to the finest with
seventeen, the two grid points next to the value are tried; the first grid with a point in the
interval wins, and of two such points the one nearer to the value.
-/
namespace FilterQuery.Number

open Text

/-- Which of two equally near decimals stands for a value halfway between them. -/
inductive Tie where
  | toEven
  | up

structure Digits where
  digits : Nat
  exponent : Int

/-- A positive real `value / unit` with the ends `low / unit` and `high / unit` of the interval of
reals that read as the same double. -/
structure Interval where
  low : Nat
  value : Nat
  high : Nat
  unit : Nat
  closed : Bool

/-- The interval of a finite number. Below a power of two the doubles lie twice as close. -/
def interval (x : Number) : Interval :=
  let scale := Nat.pow 2 (x.exponent - 1074)
  let m := 4 * x.significand
  let narrow := x.significand == binade && 0 < x.exponent
  { low := (m - if narrow then 1 else 2) * scale
    value := m * scale
    high := (m + 2) * scale
    unit := 4 * x.denominator
    closed := x.significand % 2 == 0 }

namespace Interval

def contains (i : Interval) (point : Nat) (exponent : Int) : Bool :=
  let p := point * Nat.pow 10 exponent.toNat * i.unit
  let shift := Nat.pow 10 (-exponent).toNat
  if i.closed then i.low * shift ≤ p && p ≤ i.high * shift
  else i.low * shift < p && p < i.high * shift

def magnitude (i : Interval) : Int :=
  if i.unit ≤ i.value then (decimalDigits (i.value / i.unit)).length - 1
  else
    let inverse := (i.unit + i.value - 1) / i.value
    Int.negOfNat (decimalDigits (inverse - 1)).length

/-- The point of the grid with the given exponent that stands for the value, if one lies in the
interval. -/
def onGrid? (i : Interval) (tie : Tie) (exponent : Int) : Option Nat :=
  let num := i.value * Nat.pow 10 (-exponent).toNat
  let den := i.unit * Nat.pow 10 exponent.toNat
  let below := num / den
  let above := below + 1
  match i.contains below exponent, i.contains above exponent with
  | true, true =>
    let twice := 2 * (num % den)
    let upper := den < twice || (twice == den && match tie with
      | .up => true
      | .toEven => below % 2 == 1)
    some (if upper then above else below)
  | true, false => some below
  | false, true => some above
  | false, false => none

def search (i : Interval) (tie : Tie) : Nat → Int → Digits
  | 0, exponent =>
    ⟨i.value * Nat.pow 10 (-exponent).toNat / (i.unit * Nat.pow 10 exponent.toNat), exponent⟩
  | grids + 1, exponent =>
    match i.onGrid? tie exponent with
    | some point => ⟨point, exponent⟩
    | none => search i tie grids (exponent - 1)

end Interval

def Digits.strip : Nat → Digits → Digits
  | 0, d => d
  | n + 1, d => if d.digits % 10 == 0 then strip n ⟨d.digits / 10, d.exponent + 1⟩ else d

def shortest (x : Number) (tie : Tie) : Digits :=
  let i := x.interval
  (i.search tie 17 i.magnitude).strip 18

def Digits.magnitude (d : Digits) : Int :=
  d.exponent + (decimalDigits d.digits).length - 1

end FilterQuery.Number
