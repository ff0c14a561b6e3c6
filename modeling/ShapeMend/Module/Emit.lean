import ShapeMend.Event
import ShapeMend.Json.Writer
import ShapeMend.Keyed
import ShapeMend.Module.Binding
import ShapeMend.Schema.Descriptor

/-!
# Emitted modules

A schema is emitted as a script module with one constant for each declaration:
the list of its fields.  The alternatives of a field stand behind a getter that
replaces itself when first read, so that the constants can refer to each other
in any order.
-/

namespace ShapeMend.Module

def defaultHeader : String := "// Generated by shape-guard. Do not edit."

def indent (depth : Nat) : String := "".pushn ' ' (2 * depth)

def line (depth : Nat) (text : String) : String := indent depth ++ text ++ "\n"

def commentSafe : List Char → List Char
  | [] => []
  | '*' :: '/' :: rest => '*' :: ' ' :: '/' :: commentSafe rest
  | c :: rest => c :: commentSafe rest

def truth (b : Bool) : String := if b then "true" else "false"

def referenceText (bindings : List (String × String))
    (name : String) : String :=
  match Keyed.lookup name bindings with
  | some binding => binding
  | none =>
    "/* unresolved: " ++ String.ofList (commentSafe name.toList) ++
      " */ undefined"

mutual

def shapeText (bindings : List (String × String)) (depth : Nat) : Shape → String
  | .primitive primitive => Json.quoted primitive.keyword
  | .literal literal => literal.toJson.compact
  | .reference name => referenceText bindings name
  | .inline fields =>
    "[\n" ++ fieldLines bindings depth fields ++ indent depth ++ "]"

def fieldLines (bindings : List (String × String)) (depth : Nat) :
    List (FieldOf Shape) → String
  | [] => ""
  | ⟨key, optional, alternatives⟩ :: fields =>
    line (depth + 1) "\x7b"
      ++ line (depth + 2) ("key: " ++ Json.quoted key ++ ",")
      ++ line (depth + 2) ("optional: " ++ truth optional ++ ",")
      ++ line (depth + 2) "get attribute() \x7b"
      ++ line (depth + 3) "const value = ["
      ++ alternativeLines bindings (depth + 4) alternatives
      ++ line (depth + 3) "];"
      ++ line (depth + 3)
        "Object.defineProperty(this, \"attribute\", \x7b value, enumerable: true \x7d);"
      ++ line (depth + 3) "return value;"
      ++ line (depth + 2) "\x7d,"
      ++ line (depth + 1) "\x7d,"
      ++ fieldLines bindings depth fields

def alternativeLines (bindings : List (String × String)) (depth : Nat) :
    List (AlternativeOf Shape) → String
  | [] => ""
  | ⟨shape, isArray⟩ :: alternatives =>
    line depth ("\x7b value: " ++ shapeText bindings depth shape ++
      ", isArray: " ++ truth isArray
        ++ ", valueType: " ++ Json.quoted shape.valueType.keyword ++ " \x7d,")
      ++ alternativeLines bindings depth alternatives

end

def fieldsText (bindings : List (String × String)) (depth : Nat)
    (fields : List Field) : String :=
  shapeText bindings depth (.inline fields)

def declarationText (bindings : List (String × String)) (exportAll : Bool)
    (declaration : Declaration) : String :=
  let binding := (Keyed.lookup declaration.name bindings).getD declaration.name
  (if declaration.exported || exportAll then "export " else "")
    ++ "const " ++ binding ++ " = " ++
      fieldsText bindings 0 declaration.fields ++ ";\n"
    ++ "Object.defineProperty(" ++ binding ++ ", \"kind\", \x7b value: "
    ++ Json.quoted declaration.kind.keyword ++ ", enumerable: false \x7d);\n"

/-! ## References to what is not declared -/

mutual

def shapeUndeclared (declared : String → Bool) : Shape → List String
  | .reference name => if declared name then [] else [name]
  | .inline fields => fieldsUndeclared declared fields
  | _ => []

/-- The names that fields refer to and that are not declared, in order and with
repetitions. -/
def fieldsUndeclared (declared : String → Bool) :
    List (FieldOf Shape) → List String
  | [] => []
  | ⟨_, _, alternatives⟩ :: fields =>
    alternativesUndeclared declared alternatives ++
      fieldsUndeclared declared fields

def alternativesUndeclared (declared : String → Bool) :
    List (AlternativeOf Shape) → List String
  | [] => []
  | ⟨shape, _⟩ :: alternatives =>
    shapeUndeclared declared shape ++
      alternativesUndeclared declared alternatives

end

end ShapeMend.Module

namespace ShapeMend.Schema

def moduleText (schema : Schema) (exportAll : Bool)
    (header : String) : String :=
  header ++ "\n" ++ String.join (schema.declarations.map fun declaration =>
    "\n" ++ Module.declarationText schema.bindings exportAll declaration)

/-- The names that the schema refers to and does not declare, in order and with
repetitions. -/
def undeclared (schema : Schema) : List String :=
  schema.declarations.flatMap fun declaration =>
    Module.fieldsUndeclared schema.contains declaration.fields

def emit (schema : Schema) (exportAll : Bool)
    (header : String) : Logged String :=
  ⟨schema.moduleText exportAll header, schema.undeclared.map .undeclaredEmitted⟩

end ShapeMend.Schema
