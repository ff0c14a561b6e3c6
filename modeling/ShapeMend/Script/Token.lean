import ShapeMend.Text.Alphabetic
import ShapeMend.Text.Numeric
import ShapeMend.Text.Position

/-!
# Tokens of a script

A token is a lexeme with its place.  The decoded characters of a quoted string
belong to its kind, so no other kind of token can have any.
-/

namespace ShapeMend.Script

open ShapeMend.Text

namespace Token

inductive Kind where
  | word
  | quoted (value : String)
  | template
  | numeral
  | pattern
  | symbol
  deriving DecidableEq, Repr

end Token

structure Token where
  kind : Token.Kind
  text : String
  span : Span
  /-- A line feed stands between the token before and this one. -/
  breakBefore : Bool
  deriving DecidableEq, Repr

structure TokenStream where
  tokens : List Token
  stop : Position
  /-- A line feed stands between the last token and the end. -/
  breakBeforeStop : Bool
  deriving DecidableEq, Repr

inductive LexicalFlaw where
  | unterminatedComment
  | unterminatedString
  | unterminatedTemplate
  | unterminatedPattern
  | escape
  | numeral
  | character
  deriving DecidableEq, Repr

def LexicalFlaw.message : LexicalFlaw → String
  | unterminatedComment => "unterminated comment"
  | unterminatedString => "unterminated string literal"
  | unterminatedTemplate => "unterminated template literal"
  | unterminatedPattern => "unterminated regular expression literal"
  | escape => "invalid escape sequence"
  | numeral => "invalid numeric literal"
  | character => "invalid character"

structure Fault where
  skip : Nat
  flaw : LexicalFlaw
  deriving DecidableEq, Repr

structure LexicalError where
  position : Position
  flaw : LexicalFlaw
  deriving DecidableEq, Repr

/-! ## Character classes -/

def startsWord (c : Char) : Bool :=
  c = '_' || c = '$' || isAlphabetic c

def continuesWord (c : Char) : Bool :=
  startsWord c || isNumeric c

/-- The characters that stand for themselves; an ellipsis and an arrow are the
only longer symbols. -/
def punctuation : List Char := "\x7b\x7d[]()<>,;:?|&=.!+-*/%^~@#".toList

def isPunctuation (c : Char) : Bool :=
  punctuation.contains c

def operandWords : List String :=
  ["return", "typeof", "instanceof", "in", "of", "new", "delete", "void",
    "throw", "case", "do",
    "else", "yield", "await"]

/-- Whether a slash after the given token begins a regular expression and is not
a division. -/
def slashOpensPattern : Option Token → Bool
  | none => true
  | some token =>
    match token.kind with
    | .symbol => !(token.text = ")" || token.text = "]" || token.text = "\x7d")
    | .word => operandWords.contains token.text
    | _ => false

end ShapeMend.Script
