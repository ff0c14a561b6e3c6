import ShapeMend.Text.Ranges

/-!
# The gaps between tokens

A gap is white space and complete comments.  A block comment without its end is
no part of a gap: the gap stops before it, and the token that should follow is
at fault.
-/

namespace ShapeMend.Script.Gap

open ShapeMend.Text

def closes : List Char → Bool
  | [] => false
  | ['*'] => false
  | '*' :: '/' :: _ => true
  | _ :: rest => closes rest

inductive Place where
  | blank
  | line
  | block

def length : Place → List Char → Nat
  | _, [] => 0
  | .blank, '/' :: '/' :: rest => length .line rest + 2
  | .blank, '/' :: '*' :: rest =>
    if closes rest then length .block rest + 2 else 0
  | .blank, c :: rest => if isBlank c then length .blank rest + 1 else 0
  | .line, c :: rest =>
    if c = '\n' then length .blank rest + 1 else length .line rest + 1
  | .block, '*' :: '/' :: rest => length .blank rest + 2
  | .block, _ :: rest => length .block rest + 1

/-- The length of the gap that opens a whole text, which may begin with an
interpreter line. -/
def openingLength : List Char → Nat
  | '#' :: '!' :: rest => length .line rest + 2
  | s => length .blank s

end ShapeMend.Script.Gap
