import ShapeMend.Json.Read
import ShapeMend.Json.Writer
import ShapeMend.Mend.Basic
import ShapeMend.Module.Binding
import ShapeMend.Text.Quoting
import ShapeMend.Text.Ranges
import ShapeMend.Text.Source

/-!
# Directives

A directive is a comment line that says what the declarations around it should
do: `@guard` what a value is mended to, `@fields` which fields a type has, and
`@absent` that there is no such type.
-/

namespace ShapeMend.Fixture

open ShapeMend.Text

inductive Directive where
  | guard (type : String) (isArray : Bool) (input expected : String)
  | fields (type : String) (keys : List String)
  | absent (type : String)
  deriving DecidableEq

/-! ## Reading lines -/

def after? : List Char → List Char → Option (List Char)
  | [], text => some text
  | _ :: _, [] => none
  | expected :: more, c :: text =>
    if c = expected then after? more text else none

def afterBlanks : List Char → List (List Char)
  | [] => []
  | c :: rest => if isBlank c then afterBlanks rest ++ [rest] else []

def dropBlanks (text : List Char) : List Char := text.dropWhile isBlank

def shortestFront? {α : Type} (result? : List Char → Option α) :
    List Char → Option (List Char × α)
  | [] => none
  | c :: rest =>
    match result? rest with
    | some result => some ([c], result)
    | none =>
      (shortestFront? result? rest).map fun (front, result) =>
        (c :: front, result)

def name? (text : List Char) : Option (String × List Char) :=
  if text.head?.any Binding.startsIdentifier then
    some (String.ofList (text.takeWhile Binding.continuesIdentifier),
      text.dropWhile Binding.continuesIdentifier)
  else none

def expected? (text : List Char) : Option (List Char) :=
  (afterBlanks text).findSome? fun rest =>
    (shortestFront? (fun behind => if behind.all isBlank then some () else none)
      rest).map (·.1)

def arrow? (text : List Char) : Option (List Char) :=
  (afterBlanks text).findSome? fun rest =>
    (after? ['=', '>'] rest).bind expected?

def sides? (text : List Char) : Option (List Char × List Char) :=
  (afterBlanks text).findSome? (shortestFront? arrow?)

def argument? (word : String) (line : List Char) :
    Option (String × List Char) := do
  let comment ← after? ['/', '/'] (dropBlanks line)
  let rest ← after? word.toList (dropBlanks comment)
  (afterBlanks rest).head?.bind name?

namespace Directive

def guardOfLine? (line : List Char) : Option Directive := do
  let (type, rest) ← argument? "@guard" line
  let (isArray, rest) :=
    match after? ['[', ']'] rest with
    | some rest => (true, rest)
    | none => (false, rest)
  let (input, expected) ← sides? rest
  return .guard type isArray (String.ofList input) (String.ofList expected)

def fieldsOfLine? (line : List Char) : Option Directive := do
  let (type, rest) ← argument? "@fields" line
  let rest := dropBlanks rest
  let word := rest.takeWhile fun c => !isBlank c
  if (rest.drop word.length).all isBlank then
    let keys := (pieces ',' word).filter fun key => !key.isEmpty
    return .fields type (keys.map String.ofList)
  else none

def absentOfLine? (line : List Char) : Option Directive := do
  let (type, rest) ← argument? "@absent" line
  if rest.all isBlank then return .absent type else none

def ofLine? (line : List Char) : Option Directive :=
  guardOfLine? line <|> fieldsOfLine? line <|> absentOfLine? line

def label : Directive → String
  | guard type isArray _ _ => "@guard " ++ type ++ if isArray then "[]" else ""
  | fields type _ => "@fields " ++ type
  | absent type => "@absent " ++ type

end Directive

/-! ## Checking -/

inductive Mismatch where
  | unreadable (text : String) (error : Json.ReadError)
  | undeclared (type : String)
  | declared (type : String)
  | value (expected actual : Json)
  | secondPass (actual : Json)
  | keys (expected actual : List String)

def keyList (keys : List String) : String :=
  "[" ++ String.intercalate ", " (keys.map debugQuoted) ++ "]"

def Mismatch.message : Mismatch → String
  | unreadable text error =>
    "bad JSON " ++ Text.ticked text ++ ": " ++ error.report
  | undeclared type => "type " ++ Text.ticked type ++ " is not in the schema"
  | declared type =>
    "type " ++ Text.ticked type ++ " should not be in the schema"
  | value expected actual =>
    "expected " ++ expected.compact ++ "\n      got " ++ actual.compact
  | secondPass actual => "not idempotent: second pass gave " ++ actual.compact
  | keys expected actual =>
    "expected fields " ++ keyList expected ++ ", got " ++ keyList actual

def valueOf (text : String) : Except Mismatch Json :=
  if text = "undefined" then .ok .null
  else (Json.ofText text).mapError (.unreadable text)

def declarationOf (schema : Schema) (type : String) :
    Except Mismatch Declaration :=
  match schema.find? type with
  | some declaration => .ok declaration
  | none => .error (.undeclared type)

/-- Whether a directive holds.  What a value is mended to must also stay as it
is when it is mended again. -/
def Directive.check (schema : Schema) : Directive → Except Mismatch Unit
  | guard type isArray input expected => do
    let input ← valueOf input
    let expected ← valueOf expected
    let declaration ← declarationOf schema type
    let actual := (schema.mend declaration isArray input).value
    if !actual.agrees expected then throw (.value expected actual)
    let again := (schema.mend declaration isArray actual).value
    if !again.agrees actual then throw (.secondPass again)
  | fields type expected => do
    let declaration ← declarationOf schema type
    let actual := declaration.fields.map (·.key)
    if actual ≠ expected then throw (.keys expected actual)
  | absent type =>
    if schema.contains type then .error (.declared type) else .ok ()

end ShapeMend.Fixture
