import FilterQuery.Number.Basic
import FilterQuery.Text.Blank
import FilterQuery.Text.Digit

/-!
Decimal fractions and the texts that write them.
-/
namespace FilterQuery

open Text

/-- The value `digits * 10 ^ exponent`, with a sign that zero has too. -/
structure Decimal where
  negative : Bool
  digits : Nat
  exponent : Int
deriving DecidableEq, Repr

namespace Decimal

def splitSign : List Char → Bool × List Char
  | '-' :: rest => (true, rest)
  | '+' :: rest => (false, rest)
  | rest => (false, rest)

def readExponent? : List Char → Option Int
  | [] => some 0
  | c :: rest =>
    let (negative, digits) := splitSign rest
    if (c == 'e' || c == 'E') && !digits.isEmpty && digits.all isDigit then
      let n : Int := decimalValue digits
      some (if negative then -n else n)
    else
      none

/-- Reads a whole text as a decimal fraction: a sign, digits with a point before, between or after
them, and an exponent. Only the digits on one side of the point are needed. -/
def read? (cs : List Char) : Option Decimal :=
  let (negative, cs) := splitSign cs
  let (whole, cs) := cs.span isDigit
  let (fraction, cs) := match cs with
    | '.' :: rest => rest.span isDigit
    | rest => ([], rest)
  if whole.isEmpty && fraction.isEmpty then none
  else (readExponent? cs).map fun e =>
    ⟨negative, decimalValue (whole ++ fraction), e - fraction.length⟩

/-- The double nearest to a decimal fraction. A value of at least `10 ^ 310` is beyond the largest
double and one below `10 ^ (-330)` is nearest to zero, whatever its digits. -/
def toNumber (d : Decimal) : Number :=
  let point := (decimalDigits d.digits).length + d.exponent
  if d.digits == 0 || point < -330 then Number.zero d.negative
  else if 310 < point then Number.infinity d.negative
  else
    Number.ofRatio d.negative (d.digits * Nat.pow 10 d.exponent.toNat)
      (Nat.pow 10 (-d.exponent).toNat)

end Decimal

def Number.ofText? (text : String) : Option Number :=
  ((Decimal.read? (trim text.toList)).map Decimal.toNumber).filter Number.isFinite

end FilterQuery
