import ShapeMend.Script.Token.Numeral
import ShapeMend.Script.Token.Template

/-!
# Splitting a text into tokens

The text is cut into gaps and lexemes, alternately, with nothing left over.
Each token takes its place from the characters before it.
-/

namespace ShapeMend.Script

open ShapeMend.Text

namespace Token

/-- How many characters a regular expression takes after its opening slash; none
if it does not end on its line.  A slash inside a class does not close it. -/
def patternLength? (inClass : Bool) : List Char → Option Nat
  | [] => none
  | '\n' :: _ => none
  | ['\\'] => none
  | '\\' :: '\n' :: _ => none
  | '\\' :: _ :: rest => (patternLength? inClass rest).map (· + 2)
  | c :: rest =>
    if c = '/' ∧ inClass = false then
      some (1 + (rest.takeWhile continuesWord).length)
    else (patternLength? (c = '[' || (inClass && c != ']')) rest).map (· + 1)

/-- The kind and the length of the token that begins with the character `c`,
which is no part of a gap. -/
def measure (previous : Option Token) (c : Char) (rest : List Char) :
    Except Fault (Kind × Nat) :=
  if Quoted.isQuote c then
    match Quoted.body c rest with
    | .ok (n, value) => .ok (.quoted (String.ofList value), n + 1)
    | .error flaw => .error ⟨0, flaw⟩
  else if c = '`' then
    (Template.body 0 1 rest).map (.template, ·)
  else if c.isDigit ∨ (c = '.' ∧ rest.head?.any Char.isDigit) then
    let n := Numeral.runLength (Numeral.hasRadixMark (c :: rest)) (c :: rest)
    if Numeral.isWellFormed ((c :: rest).take n) then .ok (.numeral, n)
    else .error ⟨0, .numeral⟩
  else if c = '.' ∧ rest.take 2 = ['.', '.'] then .ok (.symbol, 3)
  else if c = '=' ∧ rest.head? = some '>' then .ok (.symbol, 2)
  else if startsWord c then
    .ok (.word, 1 + (rest.takeWhile continuesWord).length)
  else if c = '/' ∧ rest.head? = some '*' then .error ⟨0, .unterminatedComment⟩
  else if c = '/' ∧ slashOpensPattern previous then
    match patternLength? false rest with
    | some n => .ok (.pattern, n + 1)
    | none => .error ⟨0, .unterminatedPattern⟩
  else if isPunctuation c then .ok (.symbol, 1)
  else .error ⟨0, .character⟩

end Token

namespace TokenStream

def scanAfter (previous : Option Token) (breakBefore : Bool)
    (position : Position) :
    List Char → Except LexicalError TokenStream
  | [] => .ok ⟨[], position, breakBefore⟩
  | c :: rest =>
    match Token.measure previous c rest with
    | .error fault =>
      .error ⟨position.after ((c :: rest).take fault.skip), fault.flaw⟩
    | .ok (kind, n) =>
      let lexeme := c :: rest.take (n - 1)
      let rest := rest.drop (n - 1)
      let stop := position.after lexeme
      let token : Token :=
        ⟨kind, String.ofList lexeme, ⟨position, stop.offset⟩, breakBefore⟩
      let gap := rest.take (Gap.length .blank rest)
      match scanAfter (some token) (gap.contains '\n') (stop.after gap)
        (rest.drop gap.length) with
      | .error error => .error error
      | .ok stream => .ok { stream with tokens := token :: stream.tokens }
termination_by s => s.length
decreasing_by simp only [List.length_cons, List.length_drop]; omega

def ofText (text : List Char) : Except LexicalError TokenStream :=
  let gap := text.take (Gap.openingLength text)
  scanAfter none (gap.contains '\n') (Position.origin.after gap)
    (text.drop gap.length)

end TokenStream

end ShapeMend.Script
