import ShapeMend.Json.Basic
import ShapeMend.Number.Shortest

/-!
# Writing JSON

Strings escape the quote, the backslash and the control characters below the
blank, and nothing else. Numbers that are not integers have the digits of their
shortest decimal.
-/

namespace ShapeMend

open ShapeMend.Number

/-! ## Numbers -/

def Number.Decimal.trim (d : Decimal) : List Char × Int :=
  let digits := Nat.toDigits 10 d.digits
  let kept := (digits.reverse.dropWhile (· = '0')).reverse
  (kept, d.exponent + (digits.length - kept.length : Nat))

namespace JsonNumber

/-- Digits times a power of ten, both as text.  The point is written in place
when the leading digit has an exponent from -5 through 15; otherwise one digit
stands before it and the exponent is written, with its sign. -/
def layout (digits : List Char) (exponent : Int) : List Char :=
  let leading := exponent + digits.length - 1
  if -5 ≤ leading ∧ leading ≤ 15 then
    if 0 ≤ exponent then
      digits ++ List.replicate exponent.toNat '0' ++ ['.', '0']
    else if 0 ≤ leading then
      let whole := leading.toNat + 1
      digits.take whole ++ '.' :: digits.drop whole
    else '0' :: '.' :: List.replicate (-leading - 1).toNat '0' ++ digits
  else
    let mantissa :=
      match digits with
      | first :: more@(_ :: _) => first :: '.' :: more
      | short => short
    let sign := if leading < 0 then '-' else '+'
    mantissa ++ 'e' :: sign :: (toString leading.natAbs).toList

def realText (x : Binary64) : String :=
  let body :=
    if x.isZero then ['0', '.', '0']
    else
      let (digits, exponent) := x.magnitude.shortest.trim
      layout digits exponent
  String.ofList (if x.negative then '-' :: body else body)

def text : JsonNumber → String
  | integer value => toString value
  | real value => realText value

end JsonNumber

namespace Json

/-! ## Strings -/

def escapeChar (c : Char) : List Char :=
  if c = '\x22' then ['\\', '\x22']
  else if c = '\\' then ['\\', '\\']
  else if c = '\x08' then ['\\', 'b']
  else if c = '\t' then ['\\', 't']
  else if c = '\n' then ['\\', 'n']
  else if c = '\x0c' then ['\\', 'f']
  else if c = '\r' then ['\\', 'r']
  else if c.toNat < 0x20 then
    ['\\', 'u', '0', '0', Nat.digitChar (c.toNat / 16),
      Nat.digitChar (c.toNat % 16)]
  else [c]

def quoted (s : String) : String :=
  String.ofList ('\x22' :: s.toList.flatMap escapeChar ++ ['\x22'])

/-! ## Values -/

mutual

def compact : Json → String
  | .null => "null"
  | .bool value => if value then "true" else "false"
  | .number value => value.text
  | .string value => quoted value
  | .array items => "[" ++ compactItems items ++ "]"
  | .object members => "\x7b" ++ compactMembers members ++ "\x7d"

def compactItems : List Json → String
  | [] => ""
  | [item] => compact item
  | item :: items => compact item ++ "," ++ compactItems items

def compactMembers : List (String × Json) → String
  | [] => ""
  | [(key, value)] => quoted key ++ ":" ++ compact value
  | (key, value) :: members =>
    quoted key ++ ":" ++ compact value ++ "," ++ compactMembers members

end

def newline (depth : Nat) : String := "\n".pushn ' ' (2 * depth)

mutual

/-- The text of a value with every item and member on a line of its own, two
blanks deeper than what holds it.  Empty lists and objects stay on one line. -/
def prettyAt (depth : Nat) : Json → String
  | .array (item :: items) =>
    "[" ++ prettyItems (depth + 1) (item :: items) ++ newline depth ++ "]"
  | .object (member :: members) =>
    "\x7b" ++ prettyMembers (depth + 1) (member :: members) ++
      newline depth ++ "\x7d"
  | .null => "null"
  | .bool value => if value then "true" else "false"
  | .number value => value.text
  | .string value => quoted value
  | .array [] => "[]"
  | .object [] => "\x7b\x7d"

def prettyItems (depth : Nat) : List Json → String
  | [] => ""
  | [item] => newline depth ++ prettyAt depth item
  | item :: items =>
    newline depth ++ prettyAt depth item ++ "," ++ prettyItems depth items

def prettyMembers (depth : Nat) : List (String × Json) → String
  | [] => ""
  | [(key, value)] =>
    newline depth ++ quoted key ++ ": " ++ prettyAt depth value
  | (key, value) :: members =>
    newline depth ++ quoted key ++ ": " ++ prettyAt depth value ++ "," ++
      prettyMembers depth members

end

def pretty (value : Json) : String := prettyAt 0 value

end Json

end ShapeMend
