import ShapeMend.Number.Magnitude

/-!
# Decimals

A decimal is a natural number times a power of ten.  Here is how one is read
from text and which magnitude is nearest to it.
-/

namespace ShapeMend.Number

structure Decimal where
  digits : Nat
  exponent : Int
  deriving DecidableEq, Repr

namespace Decimal

def natOfDigits (start : Nat) (digits : List Char) : Nat :=
  digits.foldl (fun n c => n * 10 + (c.toNat - '0'.toNat)) start

def exponentOfText? (s : List Char) : Option Int :=
  let (negative, digits) :=
    match s with
    | '-' :: rest => (true, rest)
    | '+' :: rest => (false, rest)
    | _ => (false, s)
  if digits = [] || !digits.all Char.isDigit then none
  else some (if negative then -natOfDigits 0 digits else natOfDigits 0 digits)

/-- The decimal written as digits with an optional point among or beside them
and an optional exponent. -/
def ofText? (s : List Char) : Option Decimal :=
  let whole := s.takeWhile Char.isDigit
  let (fraction, rest) :=
    match s.drop whole.length with
    | '.' :: rest => (rest.takeWhile Char.isDigit, rest.dropWhile Char.isDigit)
    | rest => ([], rest)
  if whole = [] && fraction = [] then none
  else
    let digits := natOfDigits (natOfDigits 0 whole) fraction
    match rest with
    | [] => some ⟨digits, -fraction.length⟩
    | c :: rest =>
      if c = 'e' || c = 'E' then
        (exponentOfText? rest).map fun exponent =>
          ⟨digits, exponent - fraction.length⟩
      else none

/-- The magnitude nearest to the decimal.  Where the exponent decides by its
size alone that the number is out of range or vanishes, its power of ten is not
computed. -/
def toMagnitude (d : Decimal) : Magnitude :=
  if d.digits = 0 then .zero
  else
    let places : Int := d.exponent + (Nat.toDigits 10 d.digits).length
    if 310 < places then .infinity
    else if places < -330 then .zero
    else if 0 ≤ d.exponent then .ofNat (d.digits * tenTo d.exponent.toNat)
    else .ofRatio d.digits (tenTo (-d.exponent).toNat)

end Decimal

end ShapeMend.Number
