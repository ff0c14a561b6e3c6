import ShapeMend.Script.Token
import ShapeMend.Text.Quoting

/-!
# Why a script cannot be read

Each flaw says what is missing or out of place; one function gives its wording.
-/

namespace ShapeMend.Script

open ShapeMend.Text

inductive Place where
  | interfaceName
  | aliasName
  | inAlias
  | afterAlias
  | typeParameters
  | afterTypeParameter
  | afterTypeArgument
  | conditional
  | functionType
  | signature
  | indexSignature
  | indexedAccess
  | parentheses
  | memberList
  | betweenMembers
  | typeName
  | afterDot
  | afterHash
  deriving DecidableEq, Repr

def Place.phrase : Place → String
  | interfaceName => "after `interface`"
  | aliasName => "after `type`"
  | inAlias => "in type alias"
  | afterAlias => "after type alias"
  | typeParameters => "in type parameter list"
  | afterTypeParameter => "to close type parameter list"
  | afterTypeArgument => "to close type arguments"
  | conditional => "in conditional type"
  | functionType => "in function type"
  | signature => "in signature"
  | indexSignature => "in index signature"
  | indexedAccess => "to close indexed access type"
  | parentheses => "to close parenthesized type"
  | memberList => "to open member list"
  | betweenMembers => "between members"
  | typeName => "in type"
  | afterDot => "after `.`"
  | afterHash => "after `#`"

inductive SyntaxFlaw where
  | lexical (flaw : LexicalFlaw)
  | missing (symbol : String) (place : Place)
  | missingName (place : Place)
  | missingTupleSeparator
  | missingPropertyName
  | strayCloser (closer : String)
  | mismatchedCloser (expected found : String)
  | unclosed (opener : String)
  | symbolInType (symbol : String)
  | patternInType
  | endInType
  | numeral
  deriving DecidableEq, Repr

namespace SyntaxFlaw

def message : SyntaxFlaw → String
  | lexical flaw => flaw.message
  | missing symbol place =>
    "expecting " ++ Text.ticked symbol ++ " " ++ place.phrase
  | missingName place => "expecting identifier " ++ place.phrase
  | missingTupleSeparator => "expecting `,` or `]` in tuple type"
  | missingPropertyName => "expecting property name"
  | strayCloser closer => "unexpected " ++ Text.ticked closer
  | mismatchedCloser expected found =>
    "expecting " ++ Text.ticked expected ++ ", found " ++ Text.ticked found
  | unclosed opener => "unclosed " ++ Text.ticked opener
  | symbolInType symbol => "unexpected " ++ Text.ticked symbol ++ " in type"
  | patternInType => "unexpected regular expression in type"
  | endInType => "unexpected end of input, expecting a type"
  | numeral => "invalid numeric literal"

end SyntaxFlaw

structure SyntaxError where
  position : Position
  flaw : SyntaxFlaw
  deriving DecidableEq, Repr

def SyntaxError.ofLexical (error : LexicalError) : SyntaxError :=
  ⟨error.position, .lexical error.flaw⟩

end ShapeMend.Script
