import ShapeMend.Script.Reader.Type
import ShapeMend.Script.Token.Scan
import ShapeMend.Text.Source

/-!
# Reading scripts

A script is read item by item.  What is neither an interface nor a type alias is
one opaque item, which ends at a semicolon or before a line that begins another
statement, outside all brackets.
-/

namespace ShapeMend.Script

open ShapeMend.Text

namespace Reader

def statementWords : List String :=
  ["export", "import", "interface", "type", "declare", "const", "let", "var",
    "function",
    "class", "enum", "namespace", "abstract"]

def startsStatement (tokens : List Token) : Bool :=
  let word := frontText tokens
  statementWords.contains word
    && (!(word = "type" || word = "interface") || frontIsWord (tokens.drop 1))

/-- How many tokens the opaque statement at the front has, given the open
brackets and whether any token of it came before. -/
def statementLength (stack : List Token) (begun : Bool) :
    List Token → Except SyntaxError Nat
  | [] =>
    match stack with
    | [] => .ok 0
    | opener :: _ => .error (opener.errorAt (.unclosed opener.text))
  | token :: rest =>
    if begun && stack.isEmpty && token.breakBefore &&
      startsStatement (token :: rest) then
      .ok 0
    else do
      let within ← Bracket.track stack token
      if token.syntacticText = ";" && stack.isEmpty then return 1
      else return (← statementLength within true rest) + 1

def itemModifiers (afterExport : Bool) : List Token → Bool × Nat
  | [] => (false, 0)
  | token :: rest =>
    if token.syntacticText = "export" then
      (true, (itemModifiers true rest).2 + 1)
    else if afterExport && token.syntacticText = "default"
        || token.syntacticText = "declare" && frontIsWordOnLine rest then
      let (exported, n) := itemModifiers false rest
      (exported, n + 1)
    else (false, 0)

/-! ## Declarations -/

def typeAfter (word : String) : Reader (Option TypeNode) := do
  if ← at? word then
    advance
    return some (← type)
  else return none

def typeParameterTail : Nat → Reader (List TypeParameter)
  | 0 => return []
  | bound + 1 => do
    if ← at? ">" then
      advance
      return []
    else
      skipWhile fun tokens =>
        ["in", "out", "const"].contains (frontText tokens) &&
          frontIsWord (tokens.drop 1)
      let parameter ← name .typeParameters
      let constraint ← typeAfter "extends"
      let fallback ← typeAfter "="
      if ← at? "," then advance
      else unless ← at? ">" do fail (.missing ">" .afterTypeParameter)
      return ⟨parameter, constraint, fallback⟩ :: (← typeParameterTail bound)

def typeParameters : Reader (List TypeParameter) := do
  if ← at? "<" then
    advance
    typeParameterTail ((← remaining) + 1)
  else return []

def parents : Reader (List TypeNode) := do
  if ← at? "extends" then
    advance
    let depth ← remaining
    separated "," (do operand (nested depth) (← remaining)) depth
  else return []

def interface (first : Span) (exported : Bool) : Reader InterfaceItem := do
  advance
  let name ← name .interfaceName
  let parameters ← typeParameters
  let parents ← parents
  let list ← members (nested ((← remaining) + 1))
  return ⟨← spanFrom first, name, exported, parameters, parents, list⟩

/-- The end of a type alias: a semicolon, a line end, a closing brace or the end
of the text. -/
def aliasEnd : Reader Unit := do
  match ← ahead with
  | [] => return ()
  | token :: _ =>
    if token.syntacticText = ";" then advance
    else unless token.syntacticText = "\x7d" || token.breakBefore do
      fail (.missing ";" .afterAlias)

def aliasItem (first : Span) (exported : Bool) : Reader AliasItem := do
  advance
  let name ← name .aliasName
  let parameters ← typeParameters
  discard (expect "=" .inAlias)
  let type ← type
  aliasEnd
  return ⟨← spanFrom first, name, exported, parameters, type⟩

def opaqueItem (first : Span) : Reader Item := do
  advanceBy (← statementLength [] false (← ahead))
  return .other (← spanFrom first)

def item : Reader Item := do
  let first ← here
  let tokens ← ahead
  let (exported, n) := itemModifiers false tokens
  let tokens := tokens.drop n
  let later := tokens.drop 1
  if frontText tokens = "interface" && frontIsWord later then
    advanceBy n
    return .interface (← interface first exported)
  else if frontText tokens = "type" && frontIsWord later
      && (frontText (later.drop 1) = "=" || frontText (later.drop 1) = "<") then
    advanceBy n
    return .typeAlias (← aliasItem first exported)
  else opaqueItem first

def items : Nat → Reader (List Item)
  | 0 => return []
  | bound + 1 => do
    if (← ahead).isEmpty then return []
    else if ← at? ";" then
      advance
      items bound
    else
      let first ← item
      return first :: (← items bound)

end Reader

def TokenStream.items (stream : TokenStream) : Except SyntaxError (List Item) :=
  (Reader.items (stream.tokens.length + 1)).run' ⟨stream.tokens, 0, stream.stop⟩

def itemsOfText (text : List Char) : Except SyntaxError (List Item) :=
  match TokenStream.ofText text with
  | .error error => .error (.ofLexical error)
  | .ok stream => stream.items

end ShapeMend.Script
