import ShapeMend.Json.Writer
import ShapeMend.Proofs.Schema.FieldLists
import ShapeMend.Script.Reader.Type

/-!
# Writing declarations

Declarations as the text of a script, one on each line.  Keys that are names
stand as they are, and all other keys are written as JSON strings.
-/

namespace ShapeMend

open ShapeMend.Number

namespace Script

def isName (text : String) : Bool :=
  match text.toList with
  | [] => false
  | c :: rest => startsWord c && rest.all continuesWord

def reservedWords : List String :=
  Reader.keywordTypes ++
    ["true", "false", "keyof", "readonly", "unique", "infer", "typeof",
      "import", "new",
      "abstract", "extends"]

def writtenKey (key : String) : List Char :=
  if isName key then key.toList else (Json.quoted key).toList

end Script

open Script

/-! ## As text -/

def Literal.written : Literal → List Char
  | .string value => (Json.quoted value).toList
  | .number value =>
    (if value.negative then ['-'] else []) ++
      Nat.toDigits 10 (value.magnitude.toNat?.getD 0)
  | .notANumber => []
  | .boolean value => (if value then "true" else "false").toList

def writtenBrackets (isArray : Bool) : List Char :=
  if isArray then ['[', ']'] else []

mutual

def Shape.written : Shape → List Char
  | .primitive primitive => primitive.keyword.toList
  | .literal literal => literal.written
  | .reference name => name.toList
  | .inline fields => ['\x7b', ' '] ++ writtenFields fields ++ ['\x7d']

def writtenFields : List (FieldOf Shape) → List Char
  | [] => []
  | ⟨key, optional, alternatives⟩ :: fields =>
    writtenKey key ++ (if optional then ['?'] else []) ++ [':', ' '] ++
      writtenAlternatives alternatives ++ [';', ' '] ++ writtenFields fields

def writtenAlternatives : List (AlternativeOf Shape) → List Char
  | [] => []
  | [⟨shape, isArray⟩] => shape.written ++ writtenBrackets isArray
  | ⟨shape, isArray⟩ :: next :: alternatives =>
    shape.written ++ writtenBrackets isArray ++ [' ', '|', ' '] ++
      writtenAlternatives (next :: alternatives)

end

def DeclarationKind.word : DeclarationKind → String
  | .interface => "interface"
  | .objectAlias | .literalUnion => "type"

/-- The text behind the name of a declaration and a blank, without the end of
the line. -/
def Declaration.writtenBody (declaration : Declaration) : List Char :=
  match declaration.kind with
  | .interface => ['\x7b', ' '] ++ writtenFields declaration.fields ++ ['\x7d']
  | .objectAlias =>
      ['=', ' ', '\x7b', ' '] ++ writtenFields declaration.fields ++
        ['\x7d', ';']
  | .literalUnion =>
    ['=', ' '] ++
      writtenAlternatives (declaration.fields.flatMap (·.alternatives)) ++ [';']

def Declaration.written (declaration : Declaration) : List Char :=
  (if declaration.exported then "export".toList ++ [' '] else []) ++
    declaration.kind.word.toList ++ [' '] ++ declaration.name.toList ++ [' '] ++
    declaration.writtenBody

/-- The text of declarations, one on each line. -/
def writtenText (declarations : List Declaration) : String :=
  String.ofList
    (declarations.flatMap fun declaration => declaration.written ++ ['\n'])

/-! ## What can be written -/

def Literal.Writable : Literal → Prop
  | .number value => ∃ n ≤ twoTo 53, value.magnitude = .ofNat n
  | .notANumber => False
  | _ => True

mutual

def Shape.Writable : Shape → Prop
  | .primitive _ => True
  | .literal literal => literal.Writable
  | .reference name => isName name ∧ name ∉ reservedWords
  | .inline fields => FieldsWritable fields

def FieldsWritable : List (FieldOf Shape) → Prop
  | [] => True
  | ⟨_, _, alternatives⟩ :: fields =>
    alternatives ≠ [] ∧ AlternativesWritable alternatives ∧
      FieldsWritable fields

def AlternativesWritable : List (AlternativeOf Shape) → Prop
  | [] => True
  | ⟨shape, _⟩ :: alternatives =>
      shape.Writable ∧ AlternativesWritable alternatives

end

/-- A literal union has one field of its own name, which holds its literals. -/
def Declaration.Writable (declaration : Declaration) : Prop :=
  isName declaration.name ∧
    match declaration.kind with
    | .literalUnion =>
      ∃ alternatives,
        declaration.fields = [⟨declaration.name, false, alternatives⟩] ∧
        alternatives ≠ [] ∧ AlternativesWritable alternatives ∧
        ∀ alternative ∈ alternatives, alternative.isLiteral
    | _ => FieldsWritable declaration.fields

end ShapeMend
