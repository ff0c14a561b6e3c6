import ShapeMend.Script.Flaw

/-!
# Brackets

Groups are skipped by keeping the brackets that are open.  Every closing bracket
must fit the innermost of them.
-/

namespace ShapeMend.Script

open ShapeMend.Text

namespace Token

def syntacticText (token : Token) : String :=
  match token.kind with
  | .word | .symbol => token.text
  | _ => ""

def errorAt (token : Token) (flaw : SyntaxFlaw) : SyntaxError :=
  ⟨token.span.start, flaw⟩

end Token

namespace Bracket

def isOpener (s : String) : Bool := s = "(" || s = "[" || s = "\x7b"

def isCloser (s : String) : Bool := s = ")" || s = "]" || s = "\x7d"

def closer (opener : String) : String :=
  if opener = "(" then ")" else if opener = "[" then "]" else "\x7d"

def track (stack : List Token) (token : Token) :
    Except SyntaxError (List Token) :=
  if token.kind ≠ .symbol then .ok stack
  else if isOpener token.text then .ok (token :: stack)
  else if isCloser token.text then
    match stack with
    | [] => .error (token.errorAt (.strayCloser token.text))
    | opener :: below =>
      if token.text = closer opener.text then .ok below
      else
        .error
          (token.errorAt (.mismatchedCloser (closer opener.text) token.text))
  else .ok stack

def groupLength (stack : List Token) : List Token → Except SyntaxError Nat
  | [] =>
    match stack.getLast? with
    | some opener => .error (opener.errorAt (.unclosed opener.text))
    | none => .ok 0
  | token :: rest => do
    let stack ← track stack token
    if stack.isEmpty then return 1
    else return (← groupLength stack rest) + 1

/-- How many tokens there are up to the angle bracket that closes `depth` open
ones.  Groups in between are skipped whole, so angle brackets inside them do not
count; a closing bracket outside a group is passed over. -/
def anglesLength (opener : Token) (depth : Nat) (stack : List Token) :
    List Token → Except SyntaxError Nat
  | [] =>
    let unclosed := stack.getLast?.getD opener
    .error (unclosed.errorAt (.unclosed unclosed.text))
  | token :: rest =>
    let text := token.syntacticText
    if !stack.isEmpty || isOpener text then do
      let stack ← track stack token
      return (← anglesLength opener depth stack rest) + 1
    else if text =
      "<" then return (← anglesLength opener (depth + 1) [] rest) + 1
    else if text = ">" then
      if depth ≤ 1 then return 1
      else return (← anglesLength opener (depth - 1) [] rest) + 1
    else return (← anglesLength opener depth [] rest) + 1

end Bracket

end ShapeMend.Script
