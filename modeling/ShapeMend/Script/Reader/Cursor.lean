import ShapeMend.Script.Reader.Bracket
import ShapeMend.Script.Tree

/-!
# Reading tokens in order

A reader consumes tokens from the front of a list.  All it can see is the tokens
ahead, where the last consumed token stopped, and where the text ends.
-/

namespace ShapeMend.Script

open ShapeMend.Text

def frontText : List Token → String
  | [] => ""
  | token :: _ => token.syntacticText

def frontIsWord : List Token → Bool
  | [] => false
  | token :: _ => token.kind = .word

def frontIsWordOnLine : List Token → Bool
  | [] => false
  | token :: _ => token.kind = .word && !token.breakBefore

structure Cursor where
  ahead : List Token
  /-- The offset at which the last consumed token stopped. -/
  lastStop : Nat
  /-- The end of the text. -/
  stop : Position

abbrev Reader := StateT Cursor (Except SyntaxError)

namespace Reader

def ahead : Reader (List Token) := return (← get).ahead

def remaining : Reader Nat := return (← get).ahead.length

def textAt (n : Nat := 0) : Reader String :=
  return frontText ((← get).ahead.drop n)

def at? (text : String) : Reader Bool := return (← textAt) = text

def here : Reader Span := do
  let cursor ← get
  match cursor.ahead with
  | [] => return .point cursor.stop
  | token :: _ => return token.span

def spanFrom (first : Span) : Reader Span :=
  return { first with stop := max (← get).lastStop first.stop }

def fail {α : Type} (flaw : SyntaxFlaw) : Reader α := do
  throw ⟨(← here).start, flaw⟩

def advance : Reader Unit :=
  modify fun cursor =>
    match cursor.ahead with
    | [] => cursor
    | token :: rest =>
      { cursor with ahead := rest, lastStop := token.span.stop }

def advanceBy : Nat → Reader Unit
  | 0 => return ()
  | n + 1 => do advance; advanceBy n

def skip (text : String) : Reader Unit := do
  if ← at? text then advance

def expect (text : String) (place : Place) : Reader Span := do
  let span ← here
  if ← at? text then
    advance
    return span
  else fail (.missing text place)

def name (place : Place) : Reader Name := do
  match ← ahead with
  | token :: _ =>
    if token.kind = .word then
      advance
      return ⟨token.text, token.span⟩
    else fail (.missingName place)
  | [] => fail (.missingName place)

def group : Reader Span := do
  let first ← here
  advanceBy (← Bracket.groupLength [] (← ahead))
  spanFrom first

def angles : Reader Unit := do
  match ← ahead with
  | [] => return ()
  | opener :: _ => advanceBy (← Bracket.anglesLength opener 0 [] (← ahead))

def runLength (test : List Token → Bool) : List Token → Nat
  | [] => 0
  | token :: rest => if test (token :: rest) then runLength test rest + 1 else 0

def skipWhile (test : List Token → Bool) : Reader Unit := do
  advanceBy (runLength test (← ahead))

/-- One or more items with a separator between them.  The bound is the number of
separators at most. -/
def separated {α : Type} (separator : String) (item : Reader α) :
    Nat → Reader (List α)
  | 0 => return [← item]
  | bound + 1 => do
    let first ← item
    if ← at? separator then
      advance
      return first :: (← separated separator item bound)
    else return [first]

end Reader

end ShapeMend.Script
