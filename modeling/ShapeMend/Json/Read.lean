import ShapeMend.Json.Scan

/-!
# Reading JSON texts

Values are read as they are written: the members of an object keep their
repetitions until the value is settled.  Lists and objects may be nested 127
deep.  Text after the value is not looked at.
-/

namespace ShapeMend.Json

namespace Scan

/-! ## Lists and objects -/

def endList (path : Path) : Scan Unit := do
  match ← peekToken with
  | none => failNext path .endInList
  | some byte =>
    if byte = 0x5D then advance
    else if byte = 0x2C then
      advance
      if (← peekToken) = some 0x5D then failNext path .trailingComma
      else failNext path .trailingCharacters
    else failNext path .trailingCharacters

def endObject (path : Path) : Scan Unit := do
  match ← peekToken with
  | none => failNext path .endInObject
  | some byte =>
    if byte = 0x7D then advance
    else if byte = 0x2C then failNext path .trailingComma
    else failNext path .trailingCharacters

def listPlace (mark : Mark) : Place :=
  let attempt : Scan Unit := do
    match ← peekToken with
    | none => return ()
    | some byte =>
      if byte = 0x5D then advance
      else if byte = 0x2C then
        advance
        discard peekToken
  match attempt.run mark with
  | .ok (_, after) => after.place
  | .error _ => mark.place

def objectPlace (mark : Mark) : Place :=
  let attempt : Scan Unit := do
    if (← peekToken) = some 0x7D then advance
  match attempt.run mark with
  | .ok (_, after) => after.place
  | .error _ => mark.place

def within {α : Type} (place : Mark → Place) (scan : Scan α) : Scan α :=
  fun mark =>
  match scan mark with
  | .error failure =>
    match failure.standing with
    | .inl _ => .error failure
    | .inr stopped => .error { failure with standing := .inl (place stopped) }
  | result => result

def hasElement (path : Path) (first : Bool) : Scan Bool := do
  match ← peekToken with
  | none => failNext path .endInList
  | some byte =>
    if byte = 0x5D then return false
    else if first then return true
    else if byte = 0x2C then
      advance
      match ← peekToken with
      | none => failNext path .endInValue
      | some byte =>
        if byte = 0x5D then failNext path .trailingComma else return true
    else failNext path .missingListSeparator

def key? (path : Path) (first : Bool) : Scan (Option String) := do
  let inside := .unknown :: path
  match ← peekToken with
  | none => failNext inside .endInObject
  | some byte =>
    if byte = 0x7D then return none
    else if first then
      if byte = 0x22 then
        advance
        return some (← string inside)
      else failNext inside .keyNotString
    else if byte = 0x2C then
      advance
      match ← peekToken with
      | none => failNext inside .endInValue
      | some byte =>
        if byte = 0x22 then
          advance
          return some (← string inside)
        else if byte = 0x7D then failNext inside .trailingComma
        else failNext inside .keyNotString
    else failNext inside .missingObjectSeparator

def colon (path : Path) : Scan Unit := do
  match ← peekToken with
  | none => failNext path .endInObject
  | some byte => if byte = 0x3A then advance else failNext path .missingColon

def elements {α : Type} (path : Path) (element : Path → Scan α) :
    Nat → Nat → Scan (List α)
  | 0, _ => failHere path .endInList
  | bound + 1, index => do
    if ← hasElement path (index = 0) then
      let first ← element (.index index :: path)
      return first :: (← elements path element bound (index + 1))
    else return []

def list {α : Type} (path : Path)
    (element : Path → Scan α) : Scan (List α) := do
  advance
  let items ← within listPlace (elements path element ((← remaining) + 1) 0)
  endList path
  return items

def members {α : Type} (path : Path) (member : Path → Scan α) (first : Bool) :
    Nat → Scan (List (String × α))
  | 0 => failHere path .endInObject
  | bound + 1 => do
    match ← key? path first with
    | none => return []
    | some key =>
      colon path
      let value ← member (.key key :: path)
      return (key, value) :: (← members path member false bound)

def object {α : Type} (path : Path) (member : Path → Scan α) :
    Scan (List (String × α)) := do
  advance
  let found ← within objectPlace (members path member true ((← remaining) + 1))
  endObject path
  return found

/-! ## Values -/

def valueWith (listed object : Path → Scan Json) (path : Path) : Scan Json := do
  match ← peekToken with
  | none => failNext path .endInValue
  | some byte =>
    if byte = 0x6E then
      advance
      word path (ascii "ull")
      return .null
    else if byte = 0x74 then
      advance
      word path (ascii "rue")
      return .bool true
    else if byte = 0x66 then
      advance
      word path (ascii "alse")
      return .bool false
    else if byte = 0x2D then
      advance
      return .number (← number path true)
    else if isDigit byte then return .number (← number path false)
    else if byte = 0x22 then
      advance
      return .string (← string path)
    else if byte = 0x5B then listed path
    else if byte = 0x7B then object path
    else failNext path .missingValue

/-- A value in which lists and objects are nested to the given depth at most. -/
def value : Nat → Path → Scan Json
  | 0 => valueWith (failNext · .nesting) (failNext · .nesting)
  | depth + 1 =>
    valueWith (fun path => return .array (← list path (value depth)))
      (fun path => return .object (← object path (value depth)))

end Scan

def nestingLimit : Nat := 127

mutual

def settle : Json → Json
  | .array items => .array (settleItems items)
  | .object members => .ofMembers (settleMembers members)
  | leaf => leaf

def settleItems : List Json → List Json
  | [] => []
  | item :: items => settle item :: settleItems items

def settleMembers : List (String × Json) → List (String × Json)
  | [] => []
  | (key, value) :: members => (key, settle value) :: settleMembers members

end

def runScan {α : Type} (scan : Scan α) (bytes : List UInt8) :
    Except ReadError α :=
  match scan.run (.start bytes) with
  | .ok (result, _) => .ok result
  | .error ⟨cause, path, .inl place⟩ => .error ⟨cause, path, place⟩
  | .error ⟨cause, path, .inr mark⟩ => .error ⟨cause, path, mark.place⟩

def ofBytes (bytes : List UInt8) : Except ReadError Json :=
  (runScan (Scan.value nestingLimit []) bytes).map settle

def ofText (text : String) : Except ReadError Json := ofBytes text.toUTF8.toList

end ShapeMend.Json
