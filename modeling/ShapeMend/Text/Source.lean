import ShapeMend.Text.Position

/-!
# Sources and caret diagnostics

A source is a text with the name under which it is reported.  Its lines are the
pieces between line feeds; a carriage return right before a line feed belongs to
the line end and not to the line.
-/

namespace ShapeMend.Text

def pieces (mark : Char) : List Char → List (List Char)
  | [] => [[]]
  | c :: rest =>
    if c = mark then [] :: pieces mark rest
    else
      match pieces mark rest with
      | [] => [[c]]
      | piece :: more => (c :: piece) :: more

structure Source where
  id : String
  text : String
  deriving DecidableEq

def dropReturn (piece : List Char) : List Char :=
  if piece.getLast? = some '\r' then piece.dropLast else piece

def lines (text : List Char) : List (List Char) :=
  let all := pieces '\n' text
  all.dropLast.map dropReturn ++ all.drop (all.length - 1)

namespace Source

def chars (source : Source) : List Char := source.text.toList

/-- The line of that number, counted from one; no characters where there is no
such line. -/
def line (source : Source) (number : Nat) : List Char :=
  if number = 0 then [] else (lines source.chars)[number - 1]?.getD []

def caretPad (line : List Char) (column : Nat) : List Char :=
  (line.take (column - 1)).map fun c => if c = '\t' then '\t' else ' '

/-- A report on one place of the source: the place, its line, a caret below it,
and the message. -/
def report (source : Source) (line column : Nat)
    (severity message : String) : String :=
  let number := toString line
  let margin := "".pushn ' ' (number.length + 1)
  let text := source.line line
  "\n--> " ++ source.id ++ ":" ++ number ++ ":" ++ toString column
    ++ "\n" ++ margin ++ "|"
    ++ "\n" ++ number ++ " | " ++ String.ofList text
    ++ "\n" ++ margin ++ "| " ++ String.ofList (caretPad text column) ++ "^"
    ++ "\n" ++ severity ++ ": " ++ message

/-- The characters whose bytes lie from one offset up to another. -/
def slice (source : Source) (start stop : Nat) : String :=
  String.ofList (go 0 source.chars)
where
  go (offset : Nat) : List Char → List Char
    | [] => []
    | c :: rest =>
      if stop ≤ offset then []
      else if start ≤ offset then c :: go (offset + c.utf8Size) rest
      else go (offset + c.utf8Size) rest

end Source

end ShapeMend.Text
