import ShapeMend.Text.Ranges

/-!
# Tokens of queries

White space and comments, which run from `#` to the end of the line, stand
between tokens; a backslash at the end of a comment's line takes the next line
along.  Operators are runs of operator characters, but a minus sign stands on
its own; a dot right before a name belongs to it.
-/

namespace ShapeMend.Query

open ShapeMend.Text

inductive Token where
  | word (name : String)
  | field (name : String)
  | variable (name : String)
  | numeral (text : String)
  | quoted (text : String)
  | symbol (text : String)
  deriving DecidableEq

namespace Token

def startsName (c : Char) : Bool := c.isAlpha || c = '_'

def continuesName (c : Char) : Bool := c.isAlphanum || c = '_'

def isOperator (c : Char) : Bool :=
  c ∈ ['|', '=', '!', '<', '>', '+', '*', '/', '%']

def isPunctuation (c : Char) : Bool :=
  c ∈ ['.', ',', ':', ';', '?', '(', ')', '[', ']', '\x7b', '\x7d']

/-- The number of characters of a comment.  The flag says that an odd number of
backslashes comes before. -/
def commentLength : (escaped : Bool) → List Char → Nat
  | _, [] => 0
  | escaped, '\r' :: '\n' :: rest =>
    if escaped then commentLength false rest + 2 else 2
  | escaped, c :: rest =>
    if c = '\n' && !escaped then 1
    else commentLength (c = '\\' && !escaped) rest + 1

/-- What is left of a text before its next token.  The bound is the number of
pieces to skip. -/
def skipGap : Nat → List Char → List Char
  | 0, text => text
  | bound + 1, text =>
    match text.dropWhile isBlank with
    | '#' :: rest => skipGap bound (rest.drop (commentLength false rest))
    | text => text

def exponentLength : List Char → Option Nat
  | [] => some 0
  | c :: rest =>
    if c = 'e' || c = 'E' then
      let sign :=
        if rest.head? = some '+' || rest.head? = some '-' then 1 else 0
      let digits := ((rest.drop sign).takeWhile Char.isDigit).length
      if digits = 0 then none else some (1 + sign + digits)
    else some 0

def numeralLength (text : List Char) : Option Nat :=
  let whole := (text.takeWhile Char.isDigit).length
  let fraction :=
    match text.drop whole with
    | '.' :: rest => (rest.takeWhile Char.isDigit).length + 1
    | _ => 0
  (exponentLength (text.drop (whole + fraction))).map (whole + fraction + ·)

def quotedLength : List Char → Option Nat
  | [] => none
  | '\x22' :: _ => some 1
  | '\\' :: _ :: rest => (quotedLength rest).map (· + 2)
  | _ :: rest => (quotedLength rest).map (· + 1)

def hexDigit? (c : Char) : Option Nat :=
  if c.isDigit then some (c.toNat - '0'.toNat)
  else if 'a' ≤ c && c ≤ 'f' then some (c.toNat - 'a'.toNat + 10)
  else if 'A' ≤ c && c ≤ 'F' then some (c.toNat - 'A'.toNat + 10)
  else none

def ofCode? (digits : List Char) : Option Char := do
  let code ← digits.foldlM (fun n c => (hexDigit? c).map (n * 16 + ·)) 0
  if code.isValidChar then some (Char.ofNat code) else none

def shortEscape? (c : Char) : Option Char :=
  if c = '\\' || c = '/' || c = '\x22' then some c
  else if c = 'b' then some '\x08'
  else if c = 'f' then some '\x0c'
  else if c = 'n' then some '\n'
  else if c = 'r' then some '\r'
  else if c = 't' then some '\t'
  else none

/-- What the characters of a string stand for.  All but the backslash may stand
for themselves. -/
def unquote : List Char → Option (List Char)
  | [] => some []
  | '\\' :: 'u' :: a :: b :: c :: d :: rest => do
    let decoded ← ofCode? [a, b, c, d]
    return decoded :: (← unquote rest)
  | '\\' :: mark :: rest => do
    let decoded ← shortEscape? mark
    return decoded :: (← unquote rest)
  | c :: rest => if c = '\\' then none else (unquote rest).map (c :: ·)

def next : List Char → Option (Token × Nat)
  | [] => none
  | '\x22' :: rest => do
    let length ← quotedLength rest
    return (.quoted (String.ofList (← unquote (rest.take (length - 1)))),
      length + 1)
  | '$' :: rest =>
    let name := rest.takeWhile continuesName
    some (.variable (String.ofList name), name.length + 1)
  | '.' :: rest =>
    if rest.head?.any startsName then
      let name := rest.takeWhile continuesName
      some (.field (String.ofList name), name.length + 1)
    else if rest.head? = some '.' then some (.symbol "..", 2)
    else some (.symbol ".", 1)
  | '-' :: '=' :: _ => some (.symbol "-=", 2)
  | '-' :: _ => some (.symbol "-", 1)
  | c :: rest =>
    if startsName c then
      let name := (c :: rest).takeWhile continuesName
      some (.word (String.ofList name), name.length)
    else if c.isDigit then do
      let length ← numeralLength (c :: rest)
      return (.numeral (String.ofList ((c :: rest).take length)), length)
    else if isOperator c then
      let operator := (c :: rest).takeWhile isOperator
      some (.symbol (String.ofList operator), operator.length)
    else if isPunctuation c then some (.symbol (String.singleton c), 1)
    else none

def ofChars : Nat → List Char → Option (List Token)
  | 0, text => if skipGap text.length text = [] then some [] else none
  | bound + 1, text =>
    match skipGap text.length text with
    | [] => some []
    | c :: rest => do
      let (token, length) ← next (c :: rest)
      return token :: (← ofChars bound ((c :: rest).drop length))

def ofText (text : String) : Option (List Token) :=
  ofChars text.length text.toList

end Token

end ShapeMend.Query
