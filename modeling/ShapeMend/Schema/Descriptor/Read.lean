import ShapeMend.Schema.Descriptor.Decode

/-!
# Reading descriptors

A descriptor is read value by value, so that the first thing found wrong is
reported with its path and its place, be it in the text or in what the text
says.
-/

namespace ShapeMend

open Json

namespace Json.Scan

/-! ## Values of a known kind -/

def foundNumber : JsonNumber → Found
  | .integer value => .integer value
  | .real value => .real (JsonNumber.realText value)

/-- Fails because of what stands in the place of the expected value.  Lists and
objects are not entered. -/
def wrongType {α : Type} (path : Path) (expected : String) : Scan α := do
  let found : Found ← do
    match ← peek with
    | none => failNext path .missingValue
    | some byte =>
      if byte = 0x5B then pure .sequence
      else if byte = 0x7B then pure .map
      else
        match ← valueWith (failNext · .missingValue) (failNext · .missingValue)
          path with
        | .null => pure .null
        | .bool value => pure (.bool value)
        | .number value => pure (foundNumber value)
        | .string value => pure (.string value)
        | _ => failNext path .missingValue
  failHere path (.wrongType found expected)

def firstByte (path : Path) : Scan UInt8 := do
  match ← peekToken with
  | none => failNext path .endInValue
  | some byte => return byte

def text (path : Path) : Scan String := do
  if (← firstByte path) = 0x22 then
    advance
    string path
  else wrongType path "a string"

def truth (path : Path) : Scan Bool := do
  let byte ← firstByte path
  if byte = 0x74 then
    advance
    word path (ascii "rue")
    return true
  else if byte = 0x66 then
    advance
    word path (ascii "alse")
    return false
  else wrongType path "a boolean"

def sequence {α : Type} (path : Path)
    (element : Path → Scan α) : Scan (List α) := do
  if (← firstByte path) = 0x5B then list path element
  else wrongType path "a sequence"

/-! ## Words among several -/

def knownWord (path : Path) (known : List String) : Scan String := do
  let word ← string path
  if known.contains word then return word
  else failHere path (.unknownVariant word known)

def nothing (path : Path) : Scan Unit := do
  if (← firstByte path) = 0x6E then
    advance
    word path (ascii "ull")
  else wrongType path "unit"

def variant (path : Path) (known : List String) : Scan String := do
  let byte ← firstByte path
  if byte = 0x22 then
    advance
    knownWord path known
  else if byte = 0x7B then
    advance
    if (← firstByte path) = 0x22 then
      advance
      let word ← knownWord path known
      colon path
      nothing (.variant word :: path)
      match ← peekToken with
      | none => failHere path .endInObject
      | some byte =>
        if byte = 0x7D then advance else failHere path .missingValue
      return word
    else failNext path .keyNotString
  else failNext path .missingValue

/-! ## Values that are passed over

What an unknown member holds only has to be well formed. -/

def passString (path : Path) : Nat → Scan Unit
  | 0 => failHere path .endInString
  | bound + 1 => do
    discard (takeWhile fun byte => byte ≠ 0x22 && byte ≠ 0x5C && 0x20 ≤ byte)
    match ← peek with
    | none => failHere path .endInString
    | some byte =>
      if byte = 0x22 then advance
      else if byte = 0x5C then
        advance
        match ← next with
        | none => failHere path .endInString
        | some mark =>
          if mark = 0x75 then discard (code path)
          else if (shortEscape? mark).isNone then failHere path .escape
          passString path bound
      else failHere path .controlCharacter

def passExponent (path : Path) : Scan Unit := do
  if isExponentMark (← peek) then
    advance
    let sign ← peek
    if sign = some 0x2D || sign = some 0x2B then advance
    match ← next with
    | none => failHere path .number
    | some byte => unless isDigit byte do failHere path .number
    discard (takeWhile isDigit)

def passNumber (path : Path) : Scan Unit := do
  match ← next with
  | none => failHere path .number
  | some first =>
    unless isDigit first do failHere path .number
    if first = 0x30 then
      if (← peek).any isDigit then failNext path .number
    else discard (takeWhile isDigit)
    if (← peek) = some 0x2E then
      advance
      if (← takeWhile isDigit).isEmpty then failNext path .number
    passExponent path

inductive Frame where
  | list
  | object

/-- Consumes what stands between a value and the next: closing brackets, and the
comma behind them. Answers the frames that stay open, or nothing where all are
closed. -/
def passClosers (path : Path) (afterValue : Bool) :
    List Frame → Scan (List Frame)
  | [] => return []
  | frame :: outer => do
    match ← peekToken, frame with
    | none, .list => failNext path .endInList
    | none, .object => failNext path .endInObject
    | some byte, frame =>
      let closes : Bool := match frame with
        | .list => byte = 0x5D
        | .object => byte = 0x7D
      if afterValue && byte = 0x2C then
        advance
        return frame :: outer
      else if closes then
        advance
        passClosers path true outer
      else if afterValue then
        match frame with
        | .list => failNext path .missingListSeparator
        | .object => failNext path .missingObjectSeparator
      else return frame :: outer

def passKey (path : Path) : Scan Unit := do
  match ← peekToken with
  | none => failNext path .endInObject
  | some byte =>
    if byte = 0x22 then
      advance
      passString path ((← remaining) + 1)
      colon path
    else failNext path .keyNotString

/-- Consumes a value inside of the frames, and all that is left of those.  The
bound is the number of values at most. -/
def passInside (path : Path) : Nat → List Frame → Scan Unit
  | 0, _ => failHere path .endInValue
  | bound + 1, frames => do
    let byte ← firstByte path
    let opened : Option Frame ←
      if byte = 0x5B then do advance; pure (some .list)
      else if byte = 0x7B then do advance; pure (some .object)
      else if byte = 0x22 then do
        advance
        passString path ((← remaining) + 1)
        pure none
      else if byte = 0x2D then do advance; passNumber path; pure none
      else if isDigit byte then do passNumber path; pure none
      else do
        discard
          (valueWith (failNext · .missingValue) (failNext · .missingValue) path)
        pure none
    let frames ←
      match opened with
      | some frame => passClosers path false (frame :: frames)
      | none => passClosers path true frames
    match frames with
    | [] => return ()
    | .list :: _ => passInside path bound frames
    | .object :: _ => do
      passKey path
      passInside path bound frames

def pass (path : Path) : Scan Unit := do
  passInside path ((← remaining) + 1) []

/-! ## Records -/

/-- The members of a record in order, each handed on by its name before its
colon.  The bound is their number at most. -/
def recordMembers {δ : Type} (path : Path) (member : String → δ → Scan δ)
    (first : Bool) :
    Nat → δ → Scan δ
  | 0, _ => failHere path .endInObject
  | bound + 1, parts => do
    match ← key? path first with
    | none => return parts
    | some name => do
      let parts ← member name parts
      recordMembers path member false bound parts

/-- A record: the list of its parts, or an object whose members are collected
and then completed. -/
def record {δ α : Type} (path : Path) (typeName : String) (start : δ)
    (member : String → δ → Scan δ) (complete : δ → Scan α) (listed : Scan α) :
      Scan α := do
  let byte ← firstByte path
  if byte = 0x5B then
    advance
    let result ← within listPlace listed
    endList path
    return result
  else if byte = 0x7B then
    advance
    let result ← within objectPlace do
      let parts ← recordMembers path member true ((← remaining) + 1) start
      complete parts
    endObject path
    return result
  else wrongType path ("struct " ++ typeName)

def memberValue {α : Type} (path : Path) (name : String) (old : Option α)
    (value : Path → Scan α) : Scan (Option α) := do
  if old.isSome then failWhole path (.repeatedField name)
  else
    colon path
    return some (← value (.key name :: path))

def unknownMember (path : Path) (name : String) : Scan Unit := do
  colon path
  pass (.key name :: path)

def required {α : Type} (path : Path) (name : String) : Option α → Scan α
  | some value => return value
  | none => failWhole path (.missingField name)

def part {α : Type} (path : Path) (expected : String) (index : Nat)
    (value : Path → Scan α) : Scan α := do
  if ← hasElement path (index = 0) then value (.index index :: path)
  else failWhole path (.wrongLength index expected)

end Json.Scan

namespace Descriptor

open Json.Scan

/-! ## Alternatives and fields -/

def alternativeValue (depth : Nat) (path : Path) :
    Scan (Option (List Field) × Json) := do
  let value ← Scan.value depth path
  return (fieldsOf? value, value)

def valueType (path : Path) : Scan ValueType := do
  let word ← variant path (ValueType.all.map (·.keyword))
  match ValueType.ofKeyword? word with
  | some type => return type
  | none => failHere path (.unknownVariant word (ValueType.all.map (·.keyword)))

def alternativeMember (depth : Nat) (path : Path) (name : String)
    (parts : AlternativeParts) : Scan AlternativeParts := do
  if name = "value" then
    return { parts with
      value := ← memberValue path name parts.value (alternativeValue depth) }
  else if name = "isArray" then
    return { parts with isArray := ← memberValue path name parts.isArray truth }
  else if name = "valueType" then
    return { parts with
      valueType := ← memberValue path name parts.valueType valueType }
  else
    unknownMember path name
    return parts

def completeAlternative (path : Path) (parts : AlternativeParts) :
    Scan ((Option (List Field) × Json) × Bool × ValueType) := do
  let value ← required path "value" parts.value
  let isArray ← required path "isArray" parts.isArray
  let type ← required path "valueType" parts.valueType
  return (value, isArray, type)

def listedAlternative (depth : Nat) (path : Path) :
    Scan ((Option (List Field) × Json) × Bool × ValueType) := do
  let expected := "struct RawAlternative with 3 elements"
  let value ← part path expected 0 (alternativeValue depth)
  let isArray ← part path expected 1 truth
  let type ← part path expected 2 valueType
  return (value, isArray, type)

def alternative (depth : Nat) (path : Path) : Scan Alternative := do
  let ((fields?, value), isArray, type) ←
    record path "RawAlternative" {} (alternativeMember depth path)
      (completeAlternative path)
      (listedAlternative depth path)
  match Shape.ofValue type fields? value with
  | .ok shape => return ⟨shape, isArray⟩
  | .error flaw => failWhole path (.custom flaw.message)

def alternatives (depth : Nat) (path : Path) : Scan (List Alternative) :=
  sequence path (alternative depth)

def fieldMember (depth : Nat) (path : Path) (name : String)
    (parts : FieldParts) : Scan FieldParts := do
  if name = "key" then
    return { parts with key := ← memberValue path name parts.key text }
  else if name = "optional" then
    return { parts with
      optional := ← memberValue path name parts.optional truth }
  else if name = "attribute" then
    return { parts with
      alternatives := ←
        memberValue path name parts.alternatives (alternatives depth) }
  else
    unknownMember path name
    return parts

def completeField (path : Path) (parts : FieldParts) : Scan Field := do
  let key ← required path "key" parts.key
  let optional ← required path "optional" parts.optional
  let alternatives ← required path "attribute" parts.alternatives
  return ⟨key, optional, alternatives⟩

def listedField (depth : Nat) (path : Path) : Scan Field := do
  let expected := "struct Field with 3 elements"
  let key ← part path expected 0 text
  let optional ← part path expected 1 truth
  let alternatives ← part path expected 2 (alternatives depth)
  return ⟨key, optional, alternatives⟩

def field (depth : Nat) (path : Path) : Scan Field :=
  record path "Field" {} (fieldMember depth path) (completeField path)
    (listedField depth path)

def fields (depth : Nat) (path : Path) : Scan (List Field) :=
  sequence path (field depth)

/-! ## Declarations -/

def kinds : List DeclarationKind := [.interface, .objectAlias, .literalUnion]

def kind (path : Path) : Scan DeclarationKind := do
  let word ← variant path (kinds.map (·.keyword))
  match kinds.find? (·.keyword = word) with
  | some kind => return kind
  | none => failHere path (.unknownVariant word (kinds.map (·.keyword)))

structure DeclarationParts where
  name : Option String := none
  kind : Option DeclarationKind := none
  exported : Option Bool := none
  fields : Option (List Field) := none

def declarationMember (depth : Nat) (path : Path) (name : String)
    (parts : DeclarationParts) : Scan DeclarationParts := do
  if name = "name" then
    return { parts with name := ← memberValue path name parts.name text }
  else if name = "kind" then
    return { parts with kind := ← memberValue path name parts.kind kind }
  else if name = "exported" then
    return { parts with
      exported := ← memberValue path name parts.exported truth }
  else if name = "fields" then
    return { parts with
      fields := ← memberValue path name parts.fields (fields depth) }
  else
    unknownMember path name
    return parts

def completeDeclaration (path : Path) (parts : DeclarationParts) :
    Scan Declaration := do
  let name ← required path "name" parts.name
  let kind ← required path "kind" parts.kind
  let exported ← required path "exported" parts.exported
  let fields ← required path "fields" parts.fields
  return ⟨name, kind, exported, fields⟩

def listedDeclaration (depth : Nat) (path : Path) : Scan Declaration := do
  let expected := "struct Declaration with 4 elements"
  let name ← part path expected 0 text
  let kind ← part path expected 1 kind
  let exported ← part path expected 2 truth
  let fields ← part path expected 3 (fields depth)
  return ⟨name, kind, exported, fields⟩

def declaration (depth : Nat) (path : Path) : Scan Declaration :=
  record path "Declaration" {} (declarationMember depth path)
    (completeDeclaration path)
    (listedDeclaration depth path)

/-- How many levels of a whole descriptor lie around the values of alternatives:
the descriptor, a declaration, its fields, a field, its alternatives, and an
alternative. -/
def outerLevels : Nat := 6

def entries : Scan (List (String × Declaration)) := do
  if (← firstByte []) = 0x7B then
    object [] (declaration (nestingLimit - outerLevels))
  else wrongType [] "a map"

def declarationOfText (text : String) : Except ReadError Declaration :=
  runScan (declaration (nestingLimit - outerLevels + 1) []) text.toUTF8.toList

end Descriptor

inductive LoadError where
  | json (error : Json.ReadError)
  | nameMismatch (key name : String)

def LoadError.message : LoadError → String
  | json error => "invalid schema descriptor " ++ error.report
  | nameMismatch key name =>
    "schema descriptor entry " ++ Text.ticked key ++ " holds declaration " ++
      Text.ticked name

namespace Schema

/-- The schema that a descriptor text describes; every entry must stand under
its own name. -/
def ofDescriptor (text : String) : Except LoadError Schema :=
  match Json.runScan Descriptor.entries text.toUTF8.toList with
  | .error error => .error (.json error)
  | .ok entries =>
    let entries := Keyed.ofEntries entries
    match entries.find? fun entry => entry.1 ≠ entry.2.name with
    | some entry => .error (.nameMismatch entry.1 entry.2.name)
    | none => .ok (ofDeclarations (entries.map (·.2)))

end Schema

end ShapeMend
