import ShapeMend.Number.Decimal

/-!
# Shortest decimals

The shortest decimal of a finite magnitude has the fewest digits with which a
number still rounds to that magnitude and to no other, and of those it is the
nearest to the exact value.
-/

namespace ShapeMend.Number.Magnitude

def quarterUnits (d : Decimal) : Nat × Nat :=
  let quarters := 4 * d.digits * unitsPerOne
  if 0 ≤ d.exponent then (quarters * tenTo d.exponent.toNat, 1)
  else (quarters, tenTo (-d.exponent).toNat)

/-- Whether a decimal rounds to the magnitude.  The numbers that do lie between
the middles of the way to the two neighbouring magnitudes, the middles included
exactly when the pattern is even. -/
def covers (m : Magnitude) (d : Decimal) : Bool :=
  let (num, den) := quarterUnits d
  let low := 2 * (unitsOfBits (m.bits - 1) + m.units) * den
  let high := 2 * (m.units + unitsOfBits (m.bits + 1)) * den
  if m.bits % 2 = 0 then low ≤ num && num ≤ high else low < num && num < high

/-- The distance between the decimal and the magnitude, in quarter units over
the decimal's denominator. -/
def distance (m : Magnitude) (d : Decimal) : Nat :=
  let (num, den) := quarterUnits d
  let exact := 4 * m.units * den
  (num - exact) + (exact - num)

def placesBelowOne : Nat → Nat → Nat
  | 0, _ => 0
  | fuel + 1, units =>
    if unitsPerOne ≤ units then 0 else placesBelowOne fuel (units * 10) + 1

def leadingExponent (m : Magnitude) : Int :=
  let whole := m.units / unitsPerOne
  if whole = 0 then -(placesBelowOne 400 m.units : Int)
  else (Nat.toDigits 10 whole).length - 1

def gridBelow (m : Magnitude) (exponent : Int) : Decimal :=
  if 0 ≤ exponent then
    ⟨m.units / (unitsPerOne * tenTo exponent.toNat), exponent⟩
  else ⟨m.units * tenTo (-exponent).toNat / unitsPerOne, exponent⟩

/-- The point of a grid that rounds to the magnitude, if one of the two around
it does.  Of two the nearer is taken, and of two equally near ones the even one.
-/
def onGrid? (m : Magnitude) (exponent : Int) : Option Decimal :=
  let below := m.gridBelow exponent
  let above : Decimal := ⟨below.digits + 1, exponent⟩
  match m.covers below, m.covers above with
  | false, false => none
  | true, false => some below
  | false, true => some above
  | true, true =>
    if m.distance below < m.distance above then some below
    else if m.distance above < m.distance below then some above
    else if below.digits % 2 = 0 then some below else some above

/-- The decimal on the first grid that has one, each grid ten times as fine as
the one before. -/
def shortestFrom (m : Magnitude) : Nat → Int → Decimal
  | 0, exponent => m.gridBelow exponent
  | fuel + 1, exponent =>
    match m.onGrid? exponent with
    | some decimal => decimal
    | none => shortestFrom m fuel (exponent - 1)

def shortest (m : Magnitude) : Decimal :=
  if m.bits = 0 then ⟨0, 0⟩ else shortestFrom m 17 m.leadingExponent

end ShapeMend.Number.Magnitude
