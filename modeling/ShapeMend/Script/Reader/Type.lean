import ShapeMend.Script.Reader.Cursor
import ShapeMend.Script.Tree.Numeral

/-!
# Reading types

The readers below are written over the reader for what is nested inside, which
is tied to itself at the end with a bound on the depth.  Nesting consumes a
token first, so the number of tokens is bound enough.
-/

namespace ShapeMend.Script.Reader

open ShapeMend.Text

inductive Nested where
  | type
  | union

/-! ## Words with a part in types -/

def keywordTypes : List String :=
  ["string", "number", "boolean", "undefined", "null", "any", "unknown",
    "never", "bigint",
    "symbol", "object", "void", "this"]

def typeTerminators : List String :=
  [",", ")", ">", "]", ";", "|", "&", "=", "\x7d", "?"]

def memberModifiers : List String :=
  ["readonly", "public", "private", "protected", "static", "declare",
    "override"]

def typeOperator? (word : String) : Option TypeOperator :=
  if word = "keyof" then some .keyof
  else if word = "readonly" then some .readonly
  else if word = "unique" then some .unique
  else none

def operandFollows : Reader Bool := do
  let later := (← ahead).drop 1
  return !later.isEmpty && !typeTerminators.contains (frontText later)

def startsKey : List Token → Bool
  | [] => false
  | token :: _ =>
    match token.kind with
    | .word | .quoted _ | .numeral => true
    | _ => token.syntacticText = "[" || token.syntacticText = "#"

def startsMapped (tokens : List Token) : Bool :=
  let tokens := tokens.drop 1
  let tokens := if frontText tokens = "+" || frontText tokens =
      "-" then tokens.drop 1 else tokens
  let tokens := if frontText tokens = "readonly" then tokens.drop 1 else tokens
  frontText tokens = "[" && frontIsWord (tokens.drop 1) &&
    frontText (tokens.drop 2) = "in"

/-! ## Names and literals -/

def dottedTail : Nat → Reader (List String)
  | 0 => return []
  | bound + 1 => do
    if ← at? "." then
      advance
      let next ← name .afterDot
      return next.text :: (← dottedTail bound)
    else return []

def dottedName : Reader (String × Bool) := do
  let first ← name .typeName
  let more ← dottedTail (← remaining)
  return (String.intercalate "." (first.text :: more), !more.isEmpty)

def moduleTail : Reader Unit := do
  advance
  discard group
  discard (dottedTail (← remaining))

def skippedArguments : Reader Unit := do
  match ← ahead with
  | token :: _ => if token.syntacticText = "<" && !token.breakBefore then angles
  | [] => return ()

def numeral (span : Span) (negative : Bool) (text : String) :
    Reader TypeNode := do
  match LiteralValue.ofNumeral? negative text with
  | some value => return .literal span value
  | none => throw ⟨span.start, .numeral⟩

def parenthesisOpensFunction : Reader Bool := do
  let tokens ← ahead
  let length ← Bracket.groupLength [] tokens
  return frontText (tokens.drop length) = "=>"

section

variable (inner : Nested → Reader TypeNode)

/-! ## Functions and signatures -/

def returnType : Reader Unit := do
  let later := (← ahead).drop 1
  if (← at? "asserts") && frontIsWordOnLine later then
    advance
    advance
    if ← at? "is" then
      advance
      discard (inner .type)
  else
    if frontIsWord (← ahead) && frontText later =
      "is" && frontIsWordOnLine later then
      advance
      advance
    discard (inner .type)

def functionType (first : Span) : Reader TypeNode := do
  if ← at? "<" then angles
  if ← at? "(" then
    discard group
    discard (expect "=>" .functionType)
    returnType inner
    return .sealed (← spanFrom first) .function
  else fail (.missing "(" .functionType)

def signature : Reader Unit := do
  if ← at? "<" then angles
  if ← at? "(" then
    discard group
    if ← at? ":" then
      advance
      returnType inner
  else fail (.missing "(" .signature)

/-! ## Lists in brackets -/

def arguments : Nat → Reader (List TypeNode)
  | 0 => return []
  | bound + 1 => do
    if ← at? ">" then
      advance
      return []
    else
      let argument ← inner .type
      if ← at? "," then advance
      else unless ← at? ">" do fail (.missing ">" .afterTypeArgument)
      return argument :: (← arguments bound)

def skipLabel : Reader Unit := do
  let tokens ← ahead
  let later := tokens.drop 1
  let optional := frontText later = "?" && frontText (later.drop 1) = ":"
  if frontIsWord tokens && (frontText later = ":" || optional) then
    advance
    skip "?"
    advance

def elements : Nat → Reader (List TypeNode)
  | 0 => return []
  | bound + 1 => do
    if ← at? "]" then
      advance
      return []
    else
      skip "..."
      skipLabel
      let element ← inner .type
      skip "?"
      if ← at? "," then advance
      else unless ← at? "]" do fail .missingTupleSeparator
      return element :: (← elements bound)

/-! ## Members -/

def plainKey : Reader String := do
  match ← ahead with
  | [] => fail .missingPropertyName
  | token :: later =>
    match token.kind with
    | .word | .numeral =>
      advance
      return token.text
    | .quoted value =>
      advance
      return value
    | _ =>
      if token.syntacticText = "#" && frontIsWord later then
        advance
        return "#" ++ (← name .afterHash).text
      else fail .missingPropertyName

def accessorKey : Reader AccessorKey := do
  if ← at? "[" then return .computed (← group)
  else return .plain (← plainKey)

def bracketedMember (first : Span) : Reader Member := do
  let later := (← ahead).drop 1
  let isIndex := frontIsWord later && frontText (later.drop 1) = ":"
  discard group
  skip "?"
  if isIndex then
    discard (expect ":" .indexSignature)
    discard (inner .type)
    return .other (← spanFrom first) .index
  else
    if (← at? "(") || (← at? "<") then signature inner
    else if ← at? ":" then
      advance
      discard (inner .type)
    return .other (← spanFrom first) .computed

def namedMember (first : Span) : Reader Member := do
  let key ← plainKey
  let optional ← at? "?"
  skip "?"
  if (← at? "(") || (← at? "<") then
    signature inner
    return .other (← spanFrom first) (.method key)
  else if ← at? ":" then
    advance
    let declared ← inner .type
    return .property (← spanFrom first) key optional (some declared)
  else return .property (← spanFrom first) key optional none

def member : Reader Member := do
  let first ← here
  skipWhile fun tokens =>
    memberModifiers.contains (frontText tokens) && startsKey (tokens.drop 1)
  let later := (← ahead).drop 1
  if (← at? "(") || (← at? "<") then
    signature inner
    return .other (← spanFrom first) .call
  else if (← at? "new") && (frontText later = "(" || frontText later = "<") then
    advance
    signature inner
    return .other (← spanFrom first) .construct
  else if ((← at? "get") || (← at? "set")) && startsKey later then
    advance
    let key ← accessorKey
    signature inner
    return .other (← spanFrom first) (.accessor key)
  else if ← at? "[" then bracketedMember inner first
  else namedMember inner first

def memberMayFollow : Reader Bool := do
  match ← ahead with
  | [] => return true
  | token :: _ => return token.syntacticText = "\x7d" || token.breakBefore

def memberTail (opener : Span) : Nat → Reader (List Member)
  | 0 => throw ⟨opener.start, .unclosed "\x7b"⟩
  | bound + 1 => do
    skipWhile fun tokens => frontText tokens = ";" || frontText tokens = ","
    if ← at? "\x7d" then
      advance
      return []
    else if (← ahead).isEmpty then throw ⟨opener.start, .unclosed "\x7b"⟩
    else
      let first ← member inner
      if (← at? ";") || (← at? ",") then advance
      else unless ← memberMayFollow do fail (.missing ";" .betweenMembers)
      return first :: (← memberTail opener bound)

def members : Reader (List Member) := do
  let opener ← expect "\x7b" .memberList
  memberTail inner opener ((← remaining) + 1)

/-! ## Operands -/

def worded : Reader TypeNode := do
  let first ← here
  let word ← textAt
  let next ← textAt 1
  if word = "true" || word = "false" then
    advance
    return .literal first (.boolean (word = "true"))
  else if word = "typeof" && (← operandFollows) then
    advance
    if (← at? "import") && (← textAt 1) = "(" then moduleTail
    else discard dottedName
    skippedArguments
    return .sealed (← spanFrom first) .query
  else if word = "import" && next = "(" then
    moduleTail
    skippedArguments
    return .sealed (← spanFrom first) .module
  else if keywordTypes.contains word && next != "." then
    advance
    return .keyword first word
  else
    let (name, qualified) ← dottedName
    let opensArguments := match ← ahead with
      | token :: _ => token.syntacticText = "<" && !token.breakBefore
      | [] => false
    if opensArguments then
      advance
      let given ← arguments inner ((← remaining) + 1)
      return .reference (← spanFrom first) name qualified given
    else return .reference (← spanFrom first) name qualified []

def negated? (symbol : String) : List Token → Option Token
  | [] => none
  | digits :: _ =>
    if symbol = "-" && digits.kind = .numeral then some digits else none

def symbolic (first : Span) (symbol : String) (later : List Token) :
    Reader TypeNode := do
  match negated? symbol later with
  | some digits =>
    advance
    advance
    numeral (first.through digits.span) true digits.text
  | none =>
    if symbol = "(" then
      advance
      let type ← inner .type
      discard (expect ")" .parentheses)
      return .parenthesized (← spanFrom first) type
    else if symbol = "[" then
      advance
      let types ← elements inner ((← remaining) + 1)
      return .tuple (← spanFrom first) types
    else if symbol = "\x7b" then
      if startsMapped (← ahead) then return .sealed (← group) .mapped
      else
        let list ← members inner
        return .object (← spanFrom first) list
    else fail (.symbolInType symbol)

def primary : Reader TypeNode := do
  match ← ahead with
  | [] => fail .endInType
  | token :: later =>
    match token.kind with
    | .quoted value =>
      advance
      return .literal token.span (.string value)
    | .numeral =>
      advance
      numeral token.span false token.text
    | .template =>
      advance
      return .sealed token.span .template
    | .word => worded inner
    | .pattern => fail .patternInType
    | .symbol => symbolic inner token.span token.text later

def brackets (first : Span) : Nat → TypeNode → Reader TypeNode
  | 0, type => return type
  | bound + 1, type => do
    let opens := match ← ahead with
      | token :: _ => token.syntacticText = "[" && !token.breakBefore
      | [] => false
    if opens then
      advance
      if ← at? "]" then
        advance
        brackets first bound (.array (← spanFrom first) type)
      else
        let index ← inner .type
        discard (expect "]" .indexedAccess)
        brackets first bound (.indexedAccess (← spanFrom first) type index)
    else return type

def postfixed : Reader TypeNode := do
  let first ← here
  let type ← primary inner
  brackets inner first (← remaining) type

/-- The constraint on an inferred type.  A question mark behind it shows that it
was the condition of an enclosing type, and nothing is consumed. -/
def inferredConstraint : Reader Unit := do
  if ← at? "extends" then
    let start ← get
    advance
    match (inner .union).run (← get) with
    | .ok (_, after) =>
      set (if frontText after.ahead = "?" then start else after)
    | .error _ => set start

def operand : Nat → Reader TypeNode
  | 0 => postfixed inner
  | bound + 1 => do
    let first ← here
    match typeOperator? (← textAt), ← operandFollows with
    | some operator, true =>
      advance
      let inside ← operand bound
      return .operator (← spanFrom first) operator inside
    | _, _ =>
      if (← at? "infer") && frontIsWord ((← ahead).drop 1) then
        advance
        advance
        inferredConstraint inner
        return .sealed (← spanFrom first) .inference
      else postfixed inner

/-! ## Combinations -/

def intersection : Reader TypeNode := do
  let first ← here
  skip "&"
  match ← separated "&" (do operand inner (← remaining)) (← remaining) with
  | [part] => return part
  | parts => return .intersection (← spanFrom first) parts

def union : Reader TypeNode := do
  let first ← here
  skip "|"
  match ← separated "|" (intersection inner) (← remaining) with
  | [branch] => return branch
  | branches => return .union (← spanFrom first) branches

def condition (first : Span) : Reader TypeNode := do
  advance
  discard (union inner)
  discard (expect "?" .conditional)
  discard (inner .type)
  discard (expect ":" .conditional)
  discard (inner .type)
  return .sealed (← spanFrom first) .conditional

def opensFunction : Reader Bool := do
  if ← at? "<" then return true
  else if ← at? "(" then parenthesisOpensFunction
  else return false

def anyType : Reader TypeNode := do
  let first ← here
  if ← opensFunction then functionType inner first
  else if (← at? "new") || ((← at? "abstract") && (← textAt 1) = "new") then
    skip "abstract"
    advance
    discard (functionType inner first)
    return .sealed (← spanFrom first) .constructor
  else
    let checked ← union inner
    if ← at? "extends" then condition inner first
    else return checked

end

def nested : Nat → Nested → Reader TypeNode
  | 0, _ => fail .endInType
  | depth + 1, .type => anyType (nested depth)
  | depth + 1, .union => union (nested depth)

def type : Reader TypeNode := do nested ((← remaining) + 1) .type

end ShapeMend.Script.Reader
