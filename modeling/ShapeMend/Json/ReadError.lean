import ShapeMend.Text.Quoting

/-!
# Why a JSON text cannot be read

An error has a cause, the path to the value that was being read, and the place
that was reached.
-/

namespace ShapeMend.Json

inductive PathStep where
  | key (name : String)
  | index (position : Nat)
  | variant (name : String)
  /-- A member whose key could not be read. -/
  | unknown
  deriving DecidableEq

namespace PathStep

def text : PathStep → String
  | key name | variant name => name
  | index position => "[" ++ toString position ++ "]"
  | unknown => "?"

def isIndex : PathStep → Bool
  | index _ => true
  | _ => false

end PathStep

abbrev Path := List PathStep

namespace Path

def stepsText : List PathStep → String
  | [] => ""
  | step :: steps =>
    (if step.isIndex then "" else ".") ++ step.text ++ stepsText steps

def text (path : Path) : String :=
  match path.reverse with
  | [] => "."
  | step :: steps => step.text ++ stepsText steps

end Path

inductive Found where
  | null
  | bool (value : Bool)
  | integer (value : Int)
  | real (text : String)
  | string (value : String)
  | sequence
  | map

def Found.text : Found → String
  | null => "null"
  | bool value => "boolean " ++ Text.ticked (if value then "true" else "false")
  | integer value => "integer " ++ Text.ticked (toString value)
  | real text => "floating point " ++ Text.ticked text
  | string value => "string " ++ Text.debugQuoted value
  | sequence => "sequence"
  | map => "map"

inductive ReadCause where
  | endInList
  | endInObject
  | endInString
  | endInValue
  | missingColon
  | missingListSeparator
  | missingObjectSeparator
  | missingWord
  | missingValue
  | escape
  | number
  | numberRange
  | encoding
  | controlCharacter
  | keyNotString
  | loneSurrogate
  | trailingComma
  | trailingCharacters
  | unfinishedSurrogate
  | nesting
  | wrongType (found : Found) (expected : String)
  | wrongLength (length : Nat) (expected : String)
  | missingField (name : String)
  | repeatedField (name : String)
  | unknownVariant (name : String) (known : List String)
  | custom (message : String)

namespace ReadCause

def message : ReadCause → String
  | endInList => "EOF while parsing a list"
  | endInObject => "EOF while parsing an object"
  | endInString => "EOF while parsing a string"
  | endInValue => "EOF while parsing a value"
  | missingColon => "expected `:`"
  | missingListSeparator => "expected `,` or `]`"
  | missingObjectSeparator => "expected `,` or " ++ Text.ticked "\x7d"
  | missingWord => "expected ident"
  | missingValue => "expected value"
  | escape => "invalid escape"
  | number => "invalid number"
  | numberRange => "number out of range"
  | encoding => "invalid unicode code point"
  | controlCharacter =>
    "control character (\\u0000-\\u001F) found while parsing a string"
  | keyNotString => "key must be a string"
  | loneSurrogate => "lone leading surrogate in hex escape"
  | trailingComma => "trailing comma"
  | trailingCharacters => "trailing characters"
  | unfinishedSurrogate => "unexpected end of hex escape"
  | nesting => "recursion limit exceeded"
  | wrongType found expected =>
    "invalid type: " ++ found.text ++ ", expected " ++ expected
  | wrongLength length expected =>
    "invalid length " ++ toString length ++ ", expected " ++ expected
  | missingField name => "missing field " ++ Text.ticked name
  | repeatedField name => "duplicate field " ++ Text.ticked name
  | unknownVariant name known =>
    "unknown variant " ++ Text.ticked name ++ ", expected one of "
      ++ String.intercalate ", " (known.map Text.ticked)
  | custom message => message

end ReadCause

structure Place where
  line : Nat
  column : Nat
  deriving DecidableEq

structure ReadError where
  cause : ReadCause
  path : Path
  place : Place

namespace ReadError

def message (error : ReadError) : String :=
  error.cause.message ++ " at line " ++ toString error.place.line
    ++ " column " ++ toString error.place.column

def report (error : ReadError) : String :=
  "at JSON path " ++ error.path.text ++ ": " ++ error.message

end ReadError

end ShapeMend.Json
