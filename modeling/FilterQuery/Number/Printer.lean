import FilterQuery.Number.Shortest

/-!
The two written forms of a number: in a literal, where very large and very small values take an
exponent, and in a key path or a message, where no value does.
-/
namespace FilterQuery.Number

open Text

/-- The integer that a number is, as long as doubles have no gaps between whole numbers there. -/
def safeInt? (x : Number) : Option Int :=
  match x.wholeMagnitude? with
  | some n => if n ≤ maxSafe then some (if x.negative then -n else n) else none
  | none => none

def intText (n : Int) : List Char :=
  if n < 0 then '-' :: decimalDigits n.natAbs else decimalDigits n.natAbs

def Digits.positional (d : Digits) : List Char :=
  let digits := decimalDigits d.digits
  if 0 ≤ d.exponent then digits ++ List.replicate d.exponent.toNat '0'
  else
    let places := (-d.exponent).toNat
    if places < digits.length then
      digits.take (digits.length - places) ++ '.' :: digits.drop (digits.length - places)
    else
      '0' :: '.' :: List.replicate (places - digits.length) '0' ++ digits

def Digits.scientific (d : Digits) : List Char :=
  let e := d.magnitude
  let mantissa := match decimalDigits d.digits with
    | first :: second :: rest => first :: '.' :: second :: rest
    | digits => digits
  mantissa ++ 'e' :: (if e < 0 then '-' else '+') :: decimalDigits e.natAbs

def signed (x : Number) (magnitude : List Char) : List Char :=
  if x.negative then '-' :: magnitude else magnitude

/-- A number in a literal. Safe integers have neither point nor exponent, and what is not finite is
`null`. All others keep a point if their leading digit stands at an exponent from -5 to 15. -/
def literal (x : Number) : List Char :=
  match x.safeInt? with
  | some n => intText n
  | none =>
    if x.isFinite then
      let d := x.shortest .toEven
      let e := d.magnitude
      x.signed <|
        if -5 ≤ e && e ≤ 15 then
          if 0 ≤ d.exponent then d.positional ++ ['.', '0'] else d.positional
        else d.scientific
    else
      "null".toList

def plain (x : Number) : List Char :=
  match x.safeInt? with
  | some n => intText n
  | none => x.signed (x.shortest .up).positional

end FilterQuery.Number
