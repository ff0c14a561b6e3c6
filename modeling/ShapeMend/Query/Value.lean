import ShapeMend.Json.Writer
import ShapeMend.Number.Decimal

/-!
# Values of queries

A query works on the values of JSON, except that a decimal which stands in the
query keeps its text.  It is read as a number only where it is compared or
negated, and an answer writes it as it came.
-/

namespace ShapeMend.Query

open ShapeMend.Number

inductive Amount where
  | integer (value : Int)
  | real (value : Binary64)
  /-- Digits with or without a fraction and an exponent, as the query has them.
  -/
  | written (text : String)

namespace Amount

def ofNumeral (text : String) : Amount :=
  let value := Decimal.natOfDigits 0 text.toList
  if text.all Char.isDigit && JsonNumber.isWord value then .integer value
  else .written text

def ofNumber : JsonNumber → Amount
  | .integer value => .integer value
  | .real value => .real value

def toBinary64 : Amount → Binary64
  | integer value => .ofInt value
  | real value => value
  | written text =>
    .ofMagnitude
      (((Decimal.ofText? text.toList).map (·.toMagnitude)).getD .zero)

def word? : Amount → Option Int
  | integer value => if JsonNumber.isWord value then some value else none
  | _ => none

def negated (amount : Amount) : Amount :=
  match amount.word? with
  | some value =>
    if JsonNumber.isWord (-value) then .integer (-value)
      else .real (Binary64.ofInt value).neg
  | none => .real amount.toBinary64.neg

def sameValue (a b : Amount) : Bool :=
  match a.word?, b.word? with
  | some a, some b => a = b
  | _, _ => a.toBinary64.sameValue b.toBinary64

def text : Amount → String
  | integer value => toString value
  | real value => if value.isFinite then JsonNumber.realText value else "null"
  | written text => text

end Amount

inductive Value where
  | null
  | bool (value : Bool)
  | number (value : Amount)
  | string (value : String)
  | array (items : List Value)
  | object (members : List (String × Value))

namespace Value

/-! ## From JSON -/

mutual

def ofJson : Json → Value
  | .null => .null
  | .bool value => .bool value
  | .number value => .number (.ofNumber value)
  | .string value => .string value
  | .array items => .array (ofItems items)
  | .object members => .object (ofMembers members)

def ofItems : List Json → List Value
  | [] => []
  | item :: items => ofJson item :: ofItems items

def ofMembers : List (String × Json) → List (String × Value)
  | [] => []
  | (key, value) :: members => (key, ofJson value) :: ofMembers members

end

/-! ## Text -/

mutual

def text : Value → String
  | .null => "null"
  | .bool value => if value then "true" else "false"
  | .number value => value.text
  | .string value => Json.quoted value
  | .array items => "[" ++ String.intercalate "," (itemTexts items) ++ "]"
  | .object members =>
    "\x7b" ++ String.intercalate "," (memberTexts members) ++ "\x7d"

def itemTexts : List Value → List String
  | [] => []
  | item :: items => text item :: itemTexts items

def memberTexts : List (String × Value) → List String
  | [] => []
  | (key, value) :: members =>
    (Json.quoted key ++ ":" ++ text value) :: memberTexts members

end

/-! ## Comparison -/

mutual

def agrees : Value → Value → Bool
  | .null, .null => true
  | .bool a, .bool b => a = b
  | .number a, .number b => a.sameValue b
  | .string a, .string b => a = b
  | .array a, .array b => itemsAgree a b
  | .object a, .object b => a.length = b.length && membersAgree a b
  | _, _ => false

def itemsAgree : List Value → List Value → Bool
  | [], [] => true
  | a :: as, b :: bs => agrees a b && itemsAgree as bs
  | _, _ => false

def membersAgree : List (String × Value) → List (String × Value) → Bool
  | [], _ => true
  | (key, value) :: members, others =>
    (match Keyed.lookup key others with
      | some other => agrees value other
      | none => false) && membersAgree members others

end

def word? : Value → Option Int
  | .number amount => amount.word?
  | _ => none

def holds : Value → Bool
  | .null => false
  | .bool value => value
  | _ => true

end Value

end ShapeMend.Query
