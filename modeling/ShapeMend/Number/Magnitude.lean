/-!
# Magnitudes of binary64 numbers

A magnitude is the bit pattern of a binary64 number without its sign: eleven
bits of exponent above fifty-two of fraction.  Greater patterns stand for
greater numbers and the greatest is infinity, so a number that is rounded up
over a power of two, or out of range, needs no case of its own.

Finite magnitudes count units of `2 ^ (-1074)`, the least positive number.
-/

namespace ShapeMend.Number

abbrev twoTo (n : Nat) : Nat := Nat.pow 2 n

abbrev tenTo (n : Nat) : Nat := Nat.pow 10 n

def infinityBits : Nat := 2047 * twoTo 52

structure Magnitude where
  bits : Nat
  bits_le : bits ≤ infinityBits
  deriving DecidableEq

namespace Magnitude

instance : Inhabited Magnitude := ⟨⟨0, Nat.zero_le _⟩⟩

def clamp (bits : Nat) : Magnitude :=
  ⟨min bits infinityBits, Nat.min_le_right _ _⟩

def zero : Magnitude := clamp 0

def infinity : Magnitude := clamp infinityBits

def isInfinite (m : Magnitude) : Bool := m.bits = infinityBits

def unitsOfBits (bits : Nat) : Nat :=
  if bits < twoTo 52 then bits
  else (twoTo 52 + bits % twoTo 52) * twoTo (bits / twoTo 52 - 1)

def units (m : Magnitude) : Nat := unitsOfBits m.bits

def unitsPerOne : Nat := twoTo 1074

def roundQuotient (num den : Nat) : Nat :=
  let q := num / den
  let twice := 2 * (num % den)
  if twice < den then q
  else if den < twice then q + 1
  else if q % 2 = 0 then q else q + 1

/-- The magnitude nearest to so many units over `den`.  The exponent is chosen
to leave fifty-three bits, or fewer among the subnormal numbers. -/
def ofUnitRatio (num den : Nat) : Magnitude :=
  let exponent := (num / den).log2 - 52
  clamp (exponent * twoTo 52 + roundQuotient num (den * twoTo exponent))

def ofRatio (num den : Nat) : Magnitude := ofUnitRatio (num * unitsPerOne) den

def ofNat (n : Nat) : Magnitude := ofRatio n 1

/-! Sums, products and quotients are rounded once; infinity absorbs what is
combined with it. -/

def add (a b : Magnitude) : Magnitude :=
  if a.isInfinite || b.isInfinite then infinity
  else ofUnitRatio (a.units + b.units) 1

def mul (a b : Magnitude) : Magnitude :=
  if a.isInfinite || b.isInfinite then infinity
  else ofUnitRatio (a.units * b.units) unitsPerOne

def div (a b : Magnitude) : Magnitude :=
  if a.isInfinite then infinity else ofRatio a.units b.units

def toNat? (m : Magnitude) : Option Nat :=
  if m.isInfinite then none
  else if m.units % unitsPerOne = 0 then some (m.units / unitsPerOne) else none

end Magnitude

end ShapeMend.Number
