import ShapeMend.Schema.Basic
import ShapeMend.Text.Alphabetic
import ShapeMend.Text.Letter
import ShapeMend.Text.Numeric
import ShapeMend.Text.Ranges

/-!
# Bindings

Every declaration is bound to an identifier of its own in the emitted module.
It is the declaration's name where that is an identifier and free; other
characters become underscores, and a number tells apart what would be bound
twice.
-/

namespace ShapeMend.Binding

open ShapeMend.Text

def reserved : List String :=
  ["await", "break", "case", "catch", "class", "const", "continue", "debugger",
    "default",
    "delete", "do", "else", "enum", "export", "extends", "false", "finally",
      "for", "function",
    "if", "implements", "import", "in", "instanceof", "interface", "let",
      "new", "null",
    "package", "private", "protected", "public", "return", "static", "super",
      "switch", "this",
    "throw", "true", "try", "typeof", "var", "void", "while", "with", "yield"]

def startsIdentifier (c : Char) : Bool :=
  isLetter c && !isRecent c || c = '_' || c = '$'

def continuesIdentifier (c : Char) : Bool :=
  startsIdentifier c || isNumeric c && !isRecent c

def isIdentifier (s : String) : Bool :=
  match s.toList with
  | [] => false
  | first :: rest => startsIdentifier first && rest.all continuesIdentifier

def isKept (c : Char) : Bool :=
  isAlphabetic c || isNumeric c || c = '_' || c = '$'

/-- The name with underscores for all characters that are not kept, and one
before it if it still cannot be bound. -/
def sanitized (name : String) : String :=
  let replaced :=
    String.ofList (name.toList.map fun c => if isKept c then c else '_')
  if !isIdentifier replaced || reserved.contains replaced then "_" ++ replaced
  else replaced

/-- The first candidate is the identifier itself, and those after it have a
number behind it. -/
def candidate (identifier : String) (number : Nat) : String :=
  if number ≤ 1 then identifier else identifier ++ "_" ++ toString number

/-- The first candidate from a number on that is not taken.  The bound is how
many can be taken. -/
def firstFree (taken : List String) (identifier : String) : Nat → Nat → String
  | 0, number => candidate identifier number
  | bound + 1, number =>
    if taken.contains (candidate identifier number) then
      firstFree taken identifier bound (number + 1)
    else candidate identifier number

def allocate (taken : List String) (name : String) : String :=
  firstFree taken (sanitized name) taken.length 1

def allocateAll (taken : List String) : List String → List (String × String)
  | [] => []
  | name :: names =>
    let binding := allocate taken name
    (name, binding) :: allocateAll (binding :: taken) names

end ShapeMend.Binding

namespace ShapeMend

def Schema.bindings (schema : Schema) : List (String × String) :=
  Binding.allocateAll [] schema.names

end ShapeMend
