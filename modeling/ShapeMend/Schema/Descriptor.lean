import ShapeMend.Json.Basic
import ShapeMend.Schema.Basic

/-!
# Descriptors

The descriptor of a schema is an object with one member per declaration.  A
shape is written as a value and a word for its form, so that keywords, names and
literal strings are told apart.
-/

namespace ShapeMend

open ShapeMend.Number

inductive ValueType where
  | baseType
  | literal
  | typeReference
  | typeLiteral
  deriving DecidableEq

namespace ValueType

def all : List ValueType := [baseType, literal, typeReference, typeLiteral]

def keyword : ValueType → String
  | baseType => "baseType"
  | literal => "alias"
  | typeReference => "typeReference"
  | typeLiteral => "typeLiteral"

end ValueType

namespace Literal

/-- Integers of up to sixty-four bits are written as integers; two to the
sixty-third is written as the greatest of them. -/
def numberToJson (x : Binary64) : Json :=
  match x.toInt? with
  | some n =>
    if -(twoTo 63 : Int) ≤ n ∧ n ≤ twoTo 63 then
      .number (.integer (min n (twoTo 63 - 1)))
    else .number (.real x)
  | none => if x.isFinite then .number (.real x) else .null

def toJson : Literal → Json
  | string value => .string value
  | number value => numberToJson value
  | notANumber => .null
  | boolean value => .bool value

def ofJson? : Json → Option Literal
  | .string value => some (string value)
  | .number value => some (number value.toBinary64)
  | .bool value => some (boolean value)
  | _ => none

end Literal

namespace Shape

def valueType : Shape → ValueType
  | primitive _ => .baseType
  | literal _ => .literal
  | reference _ => .typeReference
  | inline _ => .typeLiteral

end Shape

mutual

def Shape.toJson : Shape → Json
  | .primitive primitive => .string primitive.keyword
  | .literal literal => literal.toJson
  | .reference name => .string name
  | .inline fields => .array (fieldsToJson fields)

def fieldsToJson : List (FieldOf Shape) → List Json
  | [] => []
  | ⟨key, optional, alternatives⟩ :: fields =>
    .object [("key", .string key), ("optional", .bool optional),
      ("attribute", .array (alternativesToJson alternatives))] ::
        fieldsToJson fields

def alternativesToJson : List (AlternativeOf Shape) → List Json
  | [] => []
  | ⟨shape, isArray⟩ :: alternatives =>
    .object [("value", shape.toJson), ("isArray", .bool isArray),
      ("valueType", .string shape.valueType.keyword)] ::
        alternativesToJson alternatives

end

def Declaration.toJson (declaration : Declaration) : Json :=
  .object [("name", .string declaration.name),
    ("kind", .string declaration.kind.keyword),
    ("exported", .bool declaration.exported),
      ("fields", .array (fieldsToJson declaration.fields))]

def Schema.toJson (schema : Schema) : Json :=
  .object (schema.declarations.map
    fun declaration => (declaration.name, declaration.toJson))

end ShapeMend
