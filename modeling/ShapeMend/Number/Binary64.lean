import ShapeMend.Number.Magnitude

/-!
# Binary64 numbers

The numbers of the binary64 format, without those that are no number.  The two
zeros are different elements with the same value.
-/

namespace ShapeMend.Number

structure Binary64 where
  negative : Bool
  magnitude : Magnitude
  deriving DecidableEq

namespace Binary64

instance : Inhabited Binary64 := ⟨⟨false, .zero⟩⟩

def ofMagnitude (m : Magnitude) : Binary64 := ⟨false, m⟩

def neg (x : Binary64) : Binary64 := { x with negative := !x.negative }

def isFinite (x : Binary64) : Bool := !x.magnitude.isInfinite

def isZero (x : Binary64) : Bool := x.magnitude.bits = 0

def sameValue (x y : Binary64) : Bool :=
  x = y || (x.isZero && y.isZero)

def toBits (x : Binary64) : Nat :=
  x.magnitude.bits + if x.negative then twoTo 63 else 0

def ofInt (n : Int) : Binary64 := ⟨decide (n < 0), .ofNat n.natAbs⟩

def toInt? (x : Binary64) : Option Int :=
  x.magnitude.toNat?.map fun n => if x.negative then -n else n

end Binary64

end ShapeMend.Number
