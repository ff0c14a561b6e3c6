import ShapeMend.Script.Token.Quoted

/-!
# Numerals

A numeral takes every letter, digit, underscore and point that follows, and the
sign after the exponent marker of a decimal.  What was taken must then be one of
the written forms: decimal with an optional fraction and exponent, hexadecimal,
octal or binary, each with single underscores between digits and perhaps the `n`
of a big integer.
-/

namespace ShapeMend.Script.Numeral

def isRun (c : Char) : Bool :=
  c.isAlphanum || c = '_' || c = '.'

def hasRadixMark : List Char → Bool
  | '0' :: c :: _ => "xXoObB".toList.contains c
  | _ => false

def runLength (radix : Bool) : List Char → Nat
  | [] => 0
  | [c] => if isRun c then 1 else 0
  | c :: d :: rest =>
    if isRun c then
      if (c = 'e' || c = 'E') && !radix && (d = '+' || d = '-') then
        runLength radix rest + 2
      else runLength radix (d :: rest) + 1
    else 0

def skipDigits (digit : Char → Bool) : List Char → List Char
  | [] => []
  | c :: rest =>
    if digit c then skipDigits digit rest
    else if c = '_' then
      match rest with
      | d :: rest' =>
        if digit d then skipDigits digit rest' else c :: d :: rest'
      | [] => [c]
    else c :: rest

def skipDigits? (digit : Char → Bool) : List Char → Option (List Char)
  | c :: rest => if digit c then some (skipDigits digit rest) else none
  | [] => none

def isHexDigit (c : Char) : Bool := (Quoted.hexDigit? c).isSome

def isOctalDigit (c : Char) : Bool := '0' ≤ c && c ≤ '7'

def isBinaryDigit (c : Char) : Bool := c = '0' || c = '1'

def skipFraction : List Char → List Char
  | '.' :: rest => (skipDigits? Char.isDigit rest).getD rest
  | s => s

def skipSign : List Char → List Char
  | '+' :: rest => rest
  | '-' :: rest => rest
  | s => s

def skipExponent : List Char → Option (List Char)
  | 'e' :: rest => skipDigits? Char.isDigit (skipSign rest)
  | 'E' :: rest => skipDigits? Char.isDigit (skipSign rest)
  | s => some s

def atEnd (s : List Char) : Bool := s = [] || s = ['n']

def isDecimal (s : List Char) : Bool :=
  let mantissa :=
    match s with
    | '.' :: rest => skipDigits? Char.isDigit rest
    | _ => (skipDigits? Char.isDigit s).map skipFraction
  ((mantissa.bind skipExponent).map atEnd).getD false

def isRadix (digit : Char → Bool) (s : List Char) : Bool :=
  ((skipDigits? digit s).map atEnd).getD false

def isWellFormed : List Char → Bool
  | '0' :: 'x' :: rest => isRadix isHexDigit rest
  | '0' :: 'X' :: rest => isRadix isHexDigit rest
  | '0' :: 'o' :: rest => isRadix isOctalDigit rest
  | '0' :: 'O' :: rest => isRadix isOctalDigit rest
  | '0' :: 'b' :: rest => isRadix isBinaryDigit rest
  | '0' :: 'B' :: rest => isRadix isBinaryDigit rest
  | s => isDecimal s

end ShapeMend.Script.Numeral
