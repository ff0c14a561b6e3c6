import ShapeMend.Script.Token

/-!
# Quoted strings

A string literal runs to its quote on the same line.  Reading one yields how
many characters it takes and the characters it stands for.  Surrogates written
as two escapes in a row make one character; a surrogate that finds no partner
there stands for the replacement character.
-/

namespace ShapeMend.Script.Quoted

def isQuote (c : Char) : Bool := c = '\x22' || c = '\x27'

def hexDigit? (c : Char) : Option Nat :=
  if '0' ≤ c ∧ c ≤ '9' then some (c.toNat - '0'.toNat)
  else if 'a' ≤ c ∧ c ≤ 'f' then some (c.toNat - 'a'.toNat + 10)
  else if 'A' ≤ c ∧ c ≤ 'F' then some (c.toNat - 'A'.toNat + 10)
  else none

def hexRun : Nat → Nat → List Char → Option Nat
  | 0, code, _ => some code
  | _ + 1, _, [] => none
  | width + 1, code, c :: rest =>
    match hexDigit? c with
    | some digit => hexRun width (code * 16 + digit) rest
    | none => none

/-- What the marker of a code escape is followed by: four digits, or one to six
in braces.  The answer is the number of characters and the code. -/
def codeEscape? : List Char → Option (Nat × Nat)
  | '{' :: rest =>
    let digits := rest.takeWhile fun c => (hexDigit? c).isSome
    if 1 ≤ digits.length ∧ digits.length ≤ 6 ∧ (rest.drop digits.length).head? =
      some '}' then
      (hexRun digits.length 0 digits).map (digits.length + 2, ·)
    else none
  | rest => (hexRun 4 0 rest).map (4, ·)

def replacement : Char := '\uFFFD'

/-- The character of a code; the replacement character for surrogates and beyond
the last code. -/
def ofCode (code : Nat) : Char :=
  if code.isValidChar then Char.ofNat code else replacement

def isLead (code : Nat) : Bool := 0xD800 ≤ code && code < 0xDC00

def isTrail (code : Nat) : Bool := 0xDC00 ≤ code && code < 0xE000

def pairUp (lead other : Nat) : List Char :=
  if isTrail other then
    [ofCode (0x10000 + (lead - 0xD800) * 0x400 + (other - 0xDC00))]
  else [replacement, ofCode other]

/-- What a backslash is followed by: the number of characters, and those they
stand for.  A leading surrogate takes the next code escape with it, whatever
that is. -/
def escape : List Char → Except LexicalFlaw (Nat × List Char)
  | [] => .error .unterminatedString
  | 'n' :: _ => .ok (1, ['\n'])
  | 't' :: _ => .ok (1, ['\t'])
  | 'r' :: _ => .ok (1, ['\r'])
  | 'b' :: _ => .ok (1, ['\x08'])
  | 'f' :: _ => .ok (1, ['\x0c'])
  | 'v' :: _ => .ok (1, ['\x0b'])
  | '0' :: rest =>
    .ok (1, [if rest.head?.any Char.isDigit then '0' else '\x00'])
  | '\n' :: _ => .ok (1, [])
  | '\r' :: '\n' :: _ => .ok (2, [])
  | '\r' :: _ => .ok (1, [])
  | 'x' :: rest =>
    match hexRun 2 0 rest with
    | some code => .ok (3, [ofCode code])
    | none => .error .escape
  | 'u' :: rest =>
    match codeEscape? rest with
    | none => .error .escape
    | some (n, code) =>
      match isLead code, rest.drop n with
      | true, '\\' :: 'u' :: next =>
        match codeEscape? next with
        | none => .error .escape
        | some (m, other) => .ok (1 + n + 2 + m, pairUp code other)
      | _, _ => .ok (1 + n, [ofCode code])
  | c :: _ => .ok (1, [c])

/-- The rest of a string literal after its opening quote: the number of
characters through the closing one, and the characters that the literal stands
for. -/
def body (quote : Char) : List Char → Except LexicalFlaw (Nat × List Char)
  | [] => .error .unterminatedString
  | '\n' :: _ => .error .unterminatedString
  | '\\' :: rest => do
    let (n, chars) ← escape rest
    let (m, more) ← body quote (rest.drop n)
    return (n + m + 1, chars ++ more)
  | c :: rest =>
    if c = quote then return (1, [])
    else do
      let (m, more) ← body quote rest
      return (m + 1, c :: more)
termination_by s => s.length
decreasing_by
  · simp only [List.length_cons, List.length_drop]; omega
  · simp

end ShapeMend.Script.Quoted
