/-!
Binary floating-point numbers of double precision, with exact arithmetic on their values.

A number is a sign and a rank. Ranks count the non-negative doubles upwards from zero, so that the
order of ranks is the order of values; the infinity follows the largest finite double, and the ranks
above it are the payloads of what is not a number.
-/
namespace FilterQuery

/-- A double: its sign and the rank of its magnitude among all doubles. -/
structure Number where
  negative : Bool
  rank : Fin (Nat.pow 2 63)
deriving DecidableEq, Repr

namespace Number

def binade : Nat := Nat.pow 2 52

def infinityRank : Nat := 2047 * binade

def maxSafe : Nat := Nat.pow 2 53 - 1

def zero (negative : Bool) : Number := ⟨negative, ⟨0, by decide⟩⟩

def infinity (negative : Bool) : Number := ⟨negative, ⟨infinityRank, by decide⟩⟩

def ofRank (negative : Bool) (rank : Nat) : Number :=
  if h : rank < infinityRank then ⟨negative, ⟨rank, Nat.lt_trans h (by decide)⟩⟩
  else infinity negative

def ofBits (bits : UInt64) : Number :=
  ⟨Nat.pow 2 63 ≤ bits.toNat, Fin.ofNat (Nat.pow 2 63) bits.toNat⟩

def toBits (x : Number) : UInt64 :=
  ((if x.negative then Nat.pow 2 63 else 0) + x.rank.val).toUInt64

def isFinite (x : Number) : Bool := x.rank.val < infinityRank

def isNaN (x : Number) : Bool := infinityRank < x.rank.val

def isZero (x : Number) : Bool := x.rank.val == 0

/-- The integer `m` in the magnitude `m * 2 ^ (e - 1074)` of a finite number. -/
def significand (x : Number) : Nat :=
  if x.rank.val < binade then x.rank.val else binade + x.rank.val % binade

def exponent (x : Number) : Nat := x.rank.val / binade - 1

/-- The magnitude of a finite number is `numerator / denominator`. -/
def numerator (x : Number) : Nat := x.significand * Nat.pow 2 (x.exponent - 1074)

def denominator (x : Number) : Nat := Nat.pow 2 (1074 - x.exponent)

/-- Equality of values: zeros of both signs are equal, and what is not a number equals nothing. -/
def sameValue (x y : Number) : Bool :=
  !x.isNaN && !y.isNaN && ((x.isZero && y.isZero) || x == y)

/-- The whole number nearest to `num / den`, a half going to the even neighbour. -/
def roundDiv (num den : Nat) : Nat :=
  let quotient := num / den
  let twice := 2 * (num % den)
  if den < twice || (twice == den && quotient % 2 == 1) then quotient + 1 else quotient

/-- The exponent `e` for which `num / den` has a significand of 53 bits in steps of
`2 ^ (e - 1074)`; zero for what is too small for that. -/
def scaleOf (num den : Nat) : Nat :=
  let e := num.log2 + 1074 - den.log2 - 52
  if num * Nat.pow 2 (1074 - e) < den * Nat.pow 2 (e - 1074) * binade then e - 1 else e

/-- The double nearest to `num / den`, a half going to the even significand. Values beyond the
largest double give infinity. -/
def ofRatio (negative : Bool) (num den : Nat) : Number :=
  if num == 0 then zero negative
  else
    let e := scaleOf num den
    let significand := roundDiv (num * Nat.pow 2 (1074 - e)) (den * Nat.pow 2 (e - 1074))
    ofRank negative (e * binade + significand)

def ofNat (n : Nat) : Number := ofRatio false n 1

def ofInt (n : Int) : Number := ofRatio (n < 0) n.natAbs 1

def mul (x y : Number) : Number :=
  ofRatio (x.negative != y.negative) (x.numerator * y.numerator) (x.denominator * y.denominator)

def div (x y : Number) : Number :=
  ofRatio (x.negative != y.negative) (x.numerator * y.denominator) (x.denominator * y.numerator)

def wholeMagnitude? (x : Number) : Option Nat :=
  if x.isFinite && x.numerator % x.denominator == 0 then some (x.numerator / x.denominator) else none

def isBelowZero (x : Number) : Bool := x.negative && !x.isZero

end Number
end FilterQuery
