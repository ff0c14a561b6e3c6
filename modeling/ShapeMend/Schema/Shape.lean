import ShapeMend.Number.Binary64

/-!
# Shapes of values

A field admits one of several alternatives, in the order in which they were
declared.  An alternative is a shape, or a list of values of that shape.  Shapes
hold fields again where an object is written out in place.
-/

namespace ShapeMend

open ShapeMend.Number

inductive Primitive where
  | string
  | number
  | boolean
  | undefined
  | null
  | any
  | unknown
  | never
  | bigint
  | symbol
  deriving DecidableEq

namespace Primitive

def all : List Primitive :=
  [string, number, boolean, undefined, null, any, unknown, never,
    bigint, symbol]

def keyword : Primitive → String
  | string => "string"
  | number => "number"
  | boolean => "boolean"
  | undefined => "undefined"
  | null => "null"
  | any => "any"
  | unknown => "unknown"
  | never => "never"
  | bigint => "bigint"
  | symbol => "symbol"

def ofKeyword? (word : String) : Option Primitive :=
  all.find? (·.keyword = word)

end Primitive

inductive Literal where
  | string (value : String)
  | number (value : Binary64)
  | notANumber
  | boolean (value : Bool)
  deriving DecidableEq

structure AlternativeOf (σ : Type) where
  shape : σ
  isArray : Bool

structure FieldOf (σ : Type) where
  key : String
  optional : Bool
  /-- In declared order; the last one supplies the default. -/
  alternatives : List (AlternativeOf σ)

inductive Shape where
  | primitive (primitive : Primitive)
  | literal (literal : Literal)
  /-- The name of a declaration, looked up where the shape is used. -/
  | reference (name : String)
  | inline (fields : List (FieldOf Shape))

abbrev Alternative := AlternativeOf Shape

abbrev Field := FieldOf Shape

namespace Alternative

def one (shape : Shape) : Alternative := ⟨shape, false⟩

def array (shape : Shape) : Alternative := ⟨shape, true⟩

end Alternative

/-! ## Agreement

Two shapes agree when they differ in nothing but the sign of zeros. -/

def Literal.agrees : Literal → Literal → Bool
  | .string a, .string b => a = b
  | .number a, .number b => a.sameValue b
  | .notANumber, .notANumber => true
  | .boolean a, .boolean b => a = b
  | _, _ => false

mutual

def Shape.agrees : Shape → Shape → Bool
  | .primitive a, .primitive b => a = b
  | .literal a, .literal b => a.agrees b
  | .reference a, .reference b => a = b
  | .inline a, .inline b => fieldsAgree a b
  | _, _ => false

def fieldsAgree : List (FieldOf Shape) → List (FieldOf Shape) → Bool
  | [], [] => true
  | ⟨key, optional, alternatives⟩ :: fields, other :: others =>
    key = other.key && optional = other.optional
      && alternativesAgree alternatives other.alternatives &&
        fieldsAgree fields others
  | _, _ => false

def alternativesAgree :
    List (AlternativeOf Shape) → List (AlternativeOf Shape) → Bool
  | [], [] => true
  | ⟨shape, isArray⟩ :: alternatives, other :: others =>
    shape.agrees other.shape && isArray = other.isArray &&
      alternativesAgree alternatives others
  | _, _ => false

end

end ShapeMend
