import ShapeMend.Json.Read
import ShapeMend.Json.Writer
import ShapeMend.Schema.Descriptor

/-!
# Shapes from descriptor values

A value that can be read as a list of fields is one, whatever its word for the
form says.  A field or an alternative is written as an object, each member at
most once and others ignored, or as the list of its parts in order.
-/

namespace ShapeMend

inductive ShapeFlaw where
  | unknownBaseType (keyword : String)
  | noLiteral (value : Json)
  | unfit (type : ValueType)

namespace ShapeFlaw

def typeName : ValueType → String
  | .baseType => "BaseType"
  | .literal => "Alias"
  | .typeReference => "TypeReference"
  | .typeLiteral => "TypeLiteral"

def message : ShapeFlaw → String
  | unknownBaseType keyword => "unknown base type " ++ Text.ticked keyword
  | noLiteral value =>
    "alias value " ++ value.compact ++ " is not a string, number or boolean"
  | unfit type => "value does not fit valueType " ++ typeName type

end ShapeFlaw

/-- The shape of a value under a word for its form, given the fields that the
value can be read as. -/
def Shape.ofValue (type : ValueType) (fields? : Option (List Field))
    (value : Json) : Except ShapeFlaw Shape :=
  match type, fields? with
  | .typeLiteral, some fields => .ok (.inline fields)
  | type, some _ => .error (.unfit type)
  | type, none =>
    match type, value.settle with
    | .baseType, .string keyword =>
      match Primitive.ofKeyword? keyword with
      | some keyword => .ok (.primitive keyword)
      | none => .error (.unknownBaseType keyword)
    | .literal, value =>
      match Literal.ofJson? value with
      | some value => .ok (.literal value)
      | none => .error (.noLiteral value)
    | .typeReference, .string name => .ok (.reference name)
    | type, _ => .error (.unfit type)

def ValueType.ofKeyword? (word : String) : Option ValueType :=
  ValueType.all.find? (·.keyword = word)

/-- A word among several, written as a string or as an object whose only member
has it as key and nothing as value. -/
def variantOf? : Json → Option String
  | .string word => some word
  | .object [(word, .null)] => some word
  | _ => none

structure AlternativeParts where
  value : Option (Option (List Field) × Json) := none
  isArray : Option Bool := none
  valueType : Option ValueType := none

namespace AlternativeParts

def withIsArray? (parts : AlternativeParts) : Json → Option AlternativeParts
  | .bool value =>
    if parts.isArray.isSome then none
      else some { parts with isArray := some value }
  | _ => none

def withValueType? (parts : AlternativeParts) (value : Json) :
    Option AlternativeParts := do
  if parts.valueType.isSome then none
  else
    return { parts with
      valueType := some (← ValueType.ofKeyword? (← variantOf? value)) }

def complete? (parts : AlternativeParts) : Option Alternative := do
  let (fields?, value) ← parts.value
  let shape ← (Shape.ofValue (← parts.valueType) fields? value).toOption
  return ⟨shape, ← parts.isArray⟩

end AlternativeParts

structure FieldParts where
  key : Option String := none
  optional : Option Bool := none
  alternatives : Option (List Alternative) := none

namespace FieldParts

def withKey? (parts : FieldParts) : Json → Option FieldParts
  | .string key =>
    if parts.key.isSome then none else some { parts with key := some key }
  | _ => none

def withOptional? (parts : FieldParts) : Json → Option FieldParts
  | .bool value =>
    if parts.optional.isSome then none
      else some { parts with optional := some value }
  | _ => none

def complete? (parts : FieldParts) : Option Field := do
  return ⟨← parts.key, ← parts.optional, ← parts.alternatives⟩

end FieldParts

mutual

def fieldsOf? : Json → Option (List Field)
  | .array items => fieldItems? items
  | _ => none

def fieldItems? : List Json → Option (List Field)
  | [] => some []
  | item :: items => do
    let field ← fieldOf? item
    return field :: (← fieldItems? items)

def fieldOf? : Json → Option Field
  | .object members => do (← fieldMembers? {} members).complete?
  | .array [.string key, .bool optional, alternatives] => do
    return ⟨key, optional, ← alternativesOf? alternatives⟩
  | _ => none

def fieldMembers? (parts : FieldParts) :
    List (String × Json) → Option FieldParts
  | [] => some parts
  | (name, value) :: members =>
    if name = "key" then do fieldMembers? (← parts.withKey? value) members
    else if name = "optional" then do
      fieldMembers? (← parts.withOptional? value) members
    else if name = "attribute" then
      if parts.alternatives.isSome then none
      else do
        let alternatives ← alternativesOf? value
        fieldMembers? { parts with alternatives := some alternatives } members
    else fieldMembers? parts members

def alternativesOf? : Json → Option (List Alternative)
  | .array items => alternativeItems? items
  | _ => none

def alternativeItems? : List Json → Option (List Alternative)
  | [] => some []
  | item :: items => do
    let alternative ← alternativeOf? item
    return alternative :: (← alternativeItems? items)

def alternativeOf? : Json → Option Alternative
  | .object members => do (← alternativeMembers? {} members).complete?
  | .array [value, isArray, valueType] => do
    let parts : AlternativeParts := { value := some (fieldsOf? value, value) }
    (← (← parts.withIsArray? isArray).withValueType? valueType).complete?
  | _ => none

def alternativeMembers? (parts : AlternativeParts) :
    List (String × Json) → Option AlternativeParts
  | [] => some parts
  | (name, value) :: members =>
    if name = "value" then
      if parts.value.isSome then none
      else
        alternativeMembers?
          { parts with value := some (fieldsOf? value, value) } members
    else if name = "isArray" then do
      alternativeMembers? (← parts.withIsArray? value) members
    else if name = "valueType" then do
      alternativeMembers? (← parts.withValueType? value) members
    else alternativeMembers? parts members

end

end ShapeMend
