import ShapeMend.Number.Decimal
import ShapeMend.Script.Tree
import ShapeMend.Script.Token.Quoted

/-!
# Values of numerals

Underscores do not count.  A big integer keeps its digits as text; any other
numeral stands for the nearest binary64 number, and one with a radix mark is
rounded after every digit.
-/

namespace ShapeMend.Script.LiteralValue

open ShapeMend.Number

def radixOfMark (s : List Char) : Option Nat :=
  match s with
  | '0' :: mark :: _ =>
    if mark = 'x' || mark = 'X' then some 16
    else if mark = 'o' || mark = 'O' then some 8
    else if mark = 'b' || mark = 'B' then some 2
    else none
  | _ => none

def digitBelow? (radix : Nat) (c : Char) : Option Nat :=
  (Quoted.hexDigit? c).filter (· < radix)

def ofRadixDigits (radix : Nat) (digits : List Char) : Magnitude :=
  (digits.filterMap (digitBelow? radix)).foldl
    (fun value digit => (value.mul (.ofNat radix)).add (.ofNat digit)) .zero

def magnitude? (digits : List Char) : Option Magnitude :=
  match radixOfMark digits with
  | some radix => some (ofRadixDigits radix (digits.drop 2))
  | none => (Decimal.ofText? digits).map Decimal.toMagnitude

def ofNumeral? (negative : Bool) (text : String) : Option LiteralValue :=
  let digits := text.toList.filter (· ≠ '_')
  if digits.getLast? = some 'n' then
    let digits := String.ofList digits.dropLast
    some (.bigInteger (if negative then "-" ++ digits else digits))
  else (magnitude? digits).map fun magnitude => .number ⟨negative, magnitude⟩

end ShapeMend.Script.LiteralValue
