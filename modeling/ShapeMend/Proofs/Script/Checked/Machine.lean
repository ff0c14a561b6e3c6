import ShapeMend.Proofs.Script.Checked.Tokens
import ShapeMend.Script.Reader.Module

/-!
# Reading entries by index

The readers once more, over a tape of entries with an index.  Every entry that
is looked at has to be on the tape, every text that is compared has to be a
slice, and the index has to stay on the tape.  The bounds are those of the
readers.
-/

namespace ShapeMend.Script.Checked

open ShapeMend.Text ShapeMend.Number

variable {α : Type}

/-- A text with the places of its lines and its entries. -/
structure Tape where
  text : List Char
  table : List (Nat × Nat)
  entries : List Entry

/-- What reads from a tape at an index and moves the index. -/
abbrev Machine := ReaderT Tape (StateT Nat (Attempt SyntaxError))

namespace Machine

def need (value : Option α) : Machine α :=
  liftM (Attempt.need value : Attempt SyntaxError α)

/-! ## Entries -/

def entryAt (index : Nat) : Machine Entry := do need (← read).entries[index]?

def last : Machine Nat := do need (minus? (← read).entries.length 1)

/-- The entry that is next, or that comes `n` entries later; the last one if
there are not as many. -/
def entry (n : Nat := 0) : Machine Entry := do
  entryAt (min ((← get) + n) (← last))

def lexeme (entry : Entry) : Machine String := do
  need (entry.text? (← read).text)

/-- The text of the word or symbol that is next, or that comes `n` entries
later. -/
def textAt (n : Nat := 0) : Machine String := do
  let entry ← entry n
  match entry.kind with
  | some .word | some .symbol => lexeme entry
  | _ => return ""

def at? (text : String) : Machine Bool := return (← textAt) = text

def atEnd : Machine Bool := return (← entry).kind = none

def isWord (n : Nat := 0) : Machine Bool := return (← entry n).kind = some .word

def isWordOnLine (n : Nat := 0) : Machine Bool := do
  let entry ← entry n
  return entry.kind = some .word && !entry.breakBefore

def remaining : Machine Nat := do need (minus? (← last) (← get))

def here : Machine Span := return (← entry).span

def spanFrom (first : Span) : Machine Span := do
  let previous ← entryAt ((← get) - 1)
  return first.through previous.span

def raise (position : Position) (flaw : SyntaxFlaw) : Machine α := do
  let tape ← read
  liftM
    (Checked.raise tape.text tape.table position flaw : Attempt SyntaxError α)

def fail (flaw : SyntaxFlaw) : Machine α := do raise (← here).start flaw

/-! ## Moves -/

def advance : Machine Unit := do
  if (← get) < (← last) then modify (· + 1)

def moveTo (index : Nat) : Machine Unit := do
  let _entry ← entryAt index
  set index

def skip (text : String) : Machine Unit := do
  if ← at? text then advance

def expect (text : String) (place : Place) : Machine Span := do
  let span ← here
  if ← at? text then
    advance
    return span
  else fail (.missing text place)

def name (place : Place) : Machine Name := do
  let entry ← entry
  if entry.kind = some .word then
    advance
    return ⟨← lexeme entry, entry.span⟩
  else fail (.missingName place)

def skipWhile (test : Machine Bool) : Nat → Machine Unit
  | 0 => return ()
  | bound + 1 => do
    if ← test then
      advance
      skipWhile test bound

def separated (separator : String) (item : Machine α) : Nat → Machine (List α)
  | 0 => return [← item]
  | bound + 1 => do
    let first ← item
    if ← at? separator then
      advance
      return first :: (← separated separator item bound)
    else return [first]

/-! ## Brackets -/

def closeFrom (opener : Nat) (stack : List Nat)
    (index : Nat) : Nat → Machine Nat
  | 0 => do
    let unclosed ← entryAt (stack.getLast?.getD opener)
    raise unclosed.span.start (.unclosed (← lexeme unclosed))
  | bound + 1 => do
    let entry ← entryAt index
    if entry.kind ≠ some .symbol then closeFrom opener stack (index + 1) bound
    else
      let text ← lexeme entry
      if Bracket.isOpener text then
        closeFrom opener (index :: stack) (index + 1) bound
      else if Bracket.isCloser text then
        match stack with
        | [] => raise entry.span.start (.strayCloser text)
        | innermost :: below => do
          let expected := Bracket.closer (← lexeme (← entryAt innermost))
          if text = expected then
            if below.isEmpty then return index
            else closeFrom opener below (index + 1) bound
          else raise entry.span.start (.mismatchedCloser expected text)
      else closeFrom opener stack (index + 1) bound

def matchingClose (opener : Nat) : Machine Nat := do
  closeFrom opener [] opener (← need (minus? (← read).entries.length opener))

def group : Machine Span := do
  let first ← here
  let close ← matchingClose (← get)
  moveTo (close + 1)
  spanFrom first

def anglesFrom (opener : Span) (depth : Nat) : Nat → Machine Unit
  | 0 => need none
  | bound + 1 => do
    if ← atEnd then raise opener.start (.unclosed "<")
    else
      let text ← textAt
      if Bracket.isOpener text then
        discard group
        anglesFrom opener depth bound
      else
        advance
        if text = "<" then anglesFrom opener (depth + 1) bound
        else if text = ">" then
          let depth ← need (minus? depth 1)
          if depth = 0 then return ()
          else anglesFrom opener depth bound
        else anglesFrom opener depth bound

def angles : Machine Unit := do anglesFrom (← here) 0 ((← remaining) + 1)

/-! ## Names and literals -/

def operandFollows : Machine Bool := do
  let next ← entry 1
  return next.kind ≠ none && !Reader.typeTerminators.contains (← textAt 1)

def startsKey (n : Nat := 0) : Machine Bool := do
  let entry ← entry n
  match entry.kind with
  | some .word | some (.quoted _) | some .numeral => return true
  | _ => return (← textAt n) = "[" || (← textAt n) = "#"

def startsMapped : Machine Bool := do
  let sign ← textAt 1
  let n := if sign = "+" || sign = "-" then 2 else 1
  let n := if (← textAt n) = "readonly" then n + 1 else n
  return (← textAt n) = "[" && (← isWord (n + 1)) && (← textAt (n + 2)) = "in"

def dottedTail : Nat → Machine (List String)
  | 0 => return []
  | bound + 1 => do
    if ← at? "." then
      advance
      let next ← name .afterDot
      return next.text :: (← dottedTail bound)
    else return []

def dottedName : Machine (String × Bool) := do
  let first ← name .typeName
  let more ← dottedTail (← remaining)
  return (String.intercalate "." (first.text :: more), !more.isEmpty)

def moduleTail : Machine Unit := do
  advance
  discard group
  discard (dottedTail (← remaining))

def opensOnLine (text : String) : Machine Bool := do
  let opener ← entry
  return (← at? text) && !opener.breakBefore

def skippedArguments : Machine Unit := do
  if ← opensOnLine "<" then angles

def magnitude? (digits : List Char) : Option Magnitude :=
  match LiteralValue.radixOfMark digits with
  | some radix => (dropBytes? 2 digits).map (LiteralValue.ofRadixDigits radix)
  | none => (Decimal.ofText? digits).map Decimal.toMagnitude

def numeral (span : Span) (negative : Bool) (entry : Entry) :
    Machine TypeNode := do
  let digits := (← lexeme entry).toList.filter (· ≠ '_')
  if digits.getLast? = some 'n' then
    let digits := String.ofList digits.dropLast
    return .literal span
      (.bigInteger (if negative then "-" ++ digits else digits))
  else
    let magnitude ← need (magnitude? digits)
    return .literal span (.number ⟨negative, magnitude⟩)

def parenthesisOpensFunction : Machine Bool := do
  let close ← matchingClose (← get)
  match (← read).entries[close + 1]? with
  | some entry => return (← lexeme entry) = "=>"
  | none => return false

section

variable (inner : Reader.Nested → Machine TypeNode)

/-! ## Functions and signatures -/

def returnType : Machine Unit := do
  if (← at? "asserts") && (← isWordOnLine 1) then
    advance
    advance
    if ← at? "is" then
      advance
      discard (inner .type)
  else
    if (← isWord) && (← textAt 1) = "is" && (← isWordOnLine 1) then
      advance
      advance
    discard (inner .type)

def functionType (first : Span) : Machine TypeNode := do
  if ← at? "<" then angles
  if ← at? "(" then
    discard group
    discard (expect "=>" .functionType)
    returnType inner
    return .sealed (← spanFrom first) .function
  else fail (.missing "(" .functionType)

def signature : Machine Unit := do
  if ← at? "<" then angles
  if ← at? "(" then
    discard group
    if ← at? ":" then
      advance
      returnType inner
  else fail (.missing "(" .signature)

/-! ## Lists in brackets -/

def arguments : Nat → Machine (List TypeNode)
  | 0 => return []
  | bound + 1 => do
    if ← at? ">" then
      advance
      return []
    else
      let argument ← inner .type
      if ← at? "," then advance
      else unless ← at? ">" do fail (.missing ">" .afterTypeArgument)
      return argument :: (← arguments bound)

def skipLabel : Machine Unit := do
  let optional := (← textAt 1) = "?" && (← textAt 2) = ":"
  if (← isWord) && ((← textAt 1) = ":" || optional) then
    advance
    skip "?"
    advance

def elements : Nat → Machine (List TypeNode)
  | 0 => return []
  | bound + 1 => do
    if ← at? "]" then
      advance
      return []
    else
      skip "..."
      skipLabel
      let element ← inner .type
      skip "?"
      if ← at? "," then advance
      else unless ← at? "]" do fail .missingTupleSeparator
      return element :: (← elements bound)

/-! ## Members -/

def plainKey : Machine String := do
  let entry ← entry
  match entry.kind with
  | some .word | some .numeral =>
    advance
    lexeme entry
  | some (.quoted value) =>
    advance
    return value
  | _ =>
    if (← at? "#") && (← isWord 1) then
      advance
      return "#" ++ (← name .afterHash).text
    else fail .missingPropertyName

def accessorKey : Machine AccessorKey := do
  if ← at? "[" then
    let span ← group
    let _key ← need (slice? (← read).text span.start.offset span.stop)
    return .computed span
  else return .plain (← plainKey)

def bracketedMember (first : Span) : Machine Member := do
  let isIndex := (← isWord 1) && (← textAt 2) = ":"
  discard group
  skip "?"
  if isIndex then
    discard (expect ":" .indexSignature)
    discard (inner .type)
    return .other (← spanFrom first) .index
  else
    if (← at? "(") || (← at? "<") then signature inner
    else if ← at? ":" then
      advance
      discard (inner .type)
    return .other (← spanFrom first) .computed

def namedMember (first : Span) : Machine Member := do
  let key ← plainKey
  let optional ← at? "?"
  skip "?"
  if (← at? "(") || (← at? "<") then
    signature inner
    return .other (← spanFrom first) (.method key)
  else if ← at? ":" then
    advance
    let declared ← inner .type
    return .property (← spanFrom first) key optional (some declared)
  else return .property (← spanFrom first) key optional none

def member : Machine Member := do
  let first ← here
  skipWhile (return Reader.memberModifiers.contains (← textAt) &&
    (← startsKey 1)) (← remaining)
  if (← at? "(") || (← at? "<") then
    signature inner
    return .other (← spanFrom first) .call
  else if (← at? "new") && ((← textAt 1) = "(" || (← textAt 1) = "<") then
    advance
    signature inner
    return .other (← spanFrom first) .construct
  else if ((← at? "get") || (← at? "set")) && (← startsKey 1) then
    advance
    let key ← accessorKey
    signature inner
    return .other (← spanFrom first) (.accessor key)
  else if ← at? "[" then bracketedMember inner first
  else namedMember inner first

def memberMayFollow : Machine Bool := do
  let entry ← entry
  return entry.kind = none || (← at? "\x7d") || entry.breakBefore

def memberTail (opener : Span) : Nat → Machine (List Member)
  | 0 => raise opener.start (.unclosed "\x7b")
  | bound + 1 => do
    skipWhile (return (← textAt) = ";" || (← textAt) = ",") (← remaining)
    if ← at? "\x7d" then
      advance
      return []
    else if ← atEnd then raise opener.start (.unclosed "\x7b")
    else
      let first ← member inner
      if (← at? ";") || (← at? ",") then advance
      else unless ← memberMayFollow do fail (.missing ";" .betweenMembers)
      return first :: (← memberTail opener bound)

def members : Machine (List Member) := do
  let opener ← expect "\x7b" .memberList
  memberTail inner opener ((← remaining) + 1)

/-! ## Operands -/

def worded : Machine TypeNode := do
  let first ← here
  let word ← textAt
  let next ← textAt 1
  if word = "true" || word = "false" then
    advance
    return .literal first (.boolean (word = "true"))
  else if word = "typeof" && (← operandFollows) then
    advance
    if (← at? "import") && (← textAt 1) = "(" then moduleTail
    else discard dottedName
    skippedArguments
    return .sealed (← spanFrom first) .query
  else if word = "import" && next = "(" then
    moduleTail
    skippedArguments
    return .sealed (← spanFrom first) .module
  else if Reader.keywordTypes.contains word && next != "." then
    advance
    return .keyword first word
  else
    let (name, qualified) ← dottedName
    if ← opensOnLine "<" then
      advance
      let given ← arguments inner ((← remaining) + 1)
      return .reference (← spanFrom first) name qualified given
    else return .reference (← spanFrom first) name qualified []

def symbolic (sign : Entry) : Machine TypeNode := do
  let symbol ← lexeme sign
  let next ← entry 1
  if symbol = "-" && next.kind = some .numeral then
    advance
    advance
    numeral (sign.span.through next.span) true next
  else if symbol = "(" then
    advance
    let type ← inner .type
    discard (expect ")" .parentheses)
    return .parenthesized (← spanFrom sign.span) type
  else if symbol = "[" then
    advance
    let types ← elements inner ((← remaining) + 1)
    return .tuple (← spanFrom sign.span) types
  else if symbol = "\x7b" then
    if ← startsMapped then return .sealed (← group) .mapped
    else
      let list ← members inner
      return .object (← spanFrom sign.span) list
  else fail (.symbolInType symbol)

def primary : Machine TypeNode := do
  let entry ← entry
  match entry.kind with
  | none => fail .endInType
  | some (.quoted value) =>
    advance
    return .literal entry.span (.string value)
  | some .numeral =>
    advance
    numeral entry.span false entry
  | some .template =>
    advance
    return .sealed entry.span .template
  | some .word => worded inner
  | some .pattern => fail .patternInType
  | some .symbol => symbolic inner entry

def brackets (first : Span) : Nat → TypeNode → Machine TypeNode
  | 0, type => return type
  | bound + 1, type => do
    if ← opensOnLine "[" then
      advance
      if ← at? "]" then
        advance
        brackets first bound (.array (← spanFrom first) type)
      else
        let index ← inner .type
        discard (expect "]" .indexedAccess)
        brackets first bound (.indexedAccess (← spanFrom first) type index)
    else return type

def postfixed : Machine TypeNode := do
  let first ← here
  let type ← primary inner
  brackets inner first (← remaining) type

def inferredConstraint : Machine Unit := do
  if ← at? "extends" then
    let start ← get
    advance
    let succeeds ← tryCatch (do discard (inner .union); return true) fun _ =>
        return false
    if !succeeds || (← at? "?") then moveTo start

def operand : Nat → Machine TypeNode
  | 0 => postfixed inner
  | bound + 1 => do
    let first ← here
    match Reader.typeOperator? (← textAt), ← operandFollows with
    | some operator, true =>
      advance
      let inside ← operand bound
      return .operator (← spanFrom first) operator inside
    | _, _ =>
      if (← at? "infer") && (← isWord 1) then
        advance
        advance
        inferredConstraint inner
        return .sealed (← spanFrom first) .inference
      else postfixed inner

/-! ## Combinations -/

def intersection : Machine TypeNode := do
  let first ← here
  skip "&"
  match ← separated "&" (do operand inner (← remaining)) (← remaining) with
  | [part] => return part
  | parts => return .intersection (← spanFrom first) parts

def union : Machine TypeNode := do
  let first ← here
  skip "|"
  match ← separated "|" (intersection inner) (← remaining) with
  | [branch] => return branch
  | branches => return .union (← spanFrom first) branches

def condition (first : Span) : Machine TypeNode := do
  advance
  discard (union inner)
  discard (expect "?" .conditional)
  discard (inner .type)
  discard (expect ":" .conditional)
  discard (inner .type)
  return .sealed (← spanFrom first) .conditional

def opensFunction : Machine Bool := do
  if ← at? "<" then return true
  else if ← at? "(" then parenthesisOpensFunction
  else return false

def anyType : Machine TypeNode := do
  let first ← here
  if ← opensFunction then functionType inner first
  else if (← at? "new") || ((← at? "abstract") && (← textAt 1) = "new") then
    skip "abstract"
    advance
    discard (functionType inner first)
    return .sealed (← spanFrom first) .constructor
  else
    let checked ← union inner
    if ← at? "extends" then condition inner first
    else return checked

end

def nested : Nat → Reader.Nested → Machine TypeNode
  | 0, _ => fail .endInType
  | depth + 1, .type => anyType (nested depth)
  | depth + 1, .union => union (nested depth)

def type : Machine TypeNode := do nested ((← remaining) + 1) .type

/-! ## Items -/

def startsStatement : Machine Bool := do
  let word ← textAt
  return Reader.statementWords.contains word &&
    (!(word = "type" || word = "interface") || (← isWord 1))

/-- The open brackets of an opaque statement, innermost first, after one more
entry; none if the entry ends the statement. -/
def track (stack : List Entry) (entry : Entry) :
    Machine (Option (List Entry)) := do
  if entry.kind ≠ some .symbol then return some stack
  else
    let text ← lexeme entry
    if Bracket.isOpener text then return some (entry :: stack)
    else if Bracket.isCloser text then
      match stack with
      | [] => raise entry.span.start (.strayCloser text)
      | innermost :: below => do
        let expected := Bracket.closer (← lexeme innermost)
        if text = expected then return some below
        else raise entry.span.start (.mismatchedCloser expected text)
    else if text = ";" && stack.isEmpty then return none
    else return some stack

/-- Goes to the end of an opaque statement with the given open brackets,
innermost first. -/
def statementFrom (stack : List Entry) (begun : Bool) : Nat → Machine Unit
  | 0 => need none
  | bound + 1 => do
    let entry ← entry
    if entry.kind = none then
      match stack with
      | [] => return ()
      | opener :: _ => raise opener.span.start (.unclosed (← lexeme opener))
    else if begun && stack.isEmpty && entry.breakBefore &&
      (← startsStatement) then return ()
    else
      advance
      match ← track stack entry with
      | some within => statementFrom within true bound
      | none => return ()

/-- Skips the words before an item; the answer is whether they export it, or
others before them do. -/
def itemModifiers (exported : Bool) : Nat → Machine Bool
  | 0 => return exported
  | bound + 1 => do
    if ← at? "export" then
      advance
      skip "default"
      itemModifiers true bound
    else if (← at? "declare") && (← isWordOnLine 1) then
      advance
      itemModifiers exported bound
    else return exported

def typeAfter (word : String) : Machine (Option TypeNode) := do
  if ← at? word then
    advance
    return some (← type)
  else return none

def typeParameterTail : Nat → Machine (List TypeParameter)
  | 0 => return []
  | bound + 1 => do
    if ← at? ">" then
      advance
      return []
    else
      skipWhile (return ["in", "out", "const"].contains (← textAt) &&
        (← isWord 1)) (← remaining)
      let parameter ← name .typeParameters
      let constraint ← typeAfter "extends"
      let fallback ← typeAfter "="
      if ← at? "," then advance
      else unless ← at? ">" do fail (.missing ">" .afterTypeParameter)
      return ⟨parameter, constraint, fallback⟩ :: (← typeParameterTail bound)

def typeParameters : Machine (List TypeParameter) := do
  if ← at? "<" then
    advance
    typeParameterTail ((← remaining) + 1)
  else return []

def parents : Machine (List TypeNode) := do
  if ← at? "extends" then
    advance
    let depth ← remaining
    separated "," (do operand (nested depth) (← remaining)) depth
  else return []

def interface (first : Span) (exported : Bool) : Machine InterfaceItem := do
  advance
  let name ← name .interfaceName
  let parameters ← typeParameters
  let parents ← parents
  let list ← members (nested ((← remaining) + 1))
  return ⟨← spanFrom first, name, exported, parameters, parents, list⟩

def aliasEnd : Machine Unit := do
  let entry ← entry
  if ← at? ";" then advance
  else unless entry.kind = none || (← at? "\x7d") || entry.breakBefore do
    fail (.missing ";" .afterAlias)

def aliasItem (first : Span) (exported : Bool) : Machine AliasItem := do
  advance
  let name ← name .aliasName
  let parameters ← typeParameters
  discard (expect "=" .inAlias)
  let type ← type
  aliasEnd
  return ⟨← spanFrom first, name, exported, parameters, type⟩

def opaqueItem (first : Span) : Machine Item := do
  statementFrom [] false ((← remaining) + 1)
  return .other (← spanFrom first)

/-- One item.  The index goes back to the first of the words before it if the
item is opaque. -/
def item : Machine Item := do
  let start ← get
  let first ← here
  let exported ← itemModifiers false (← remaining)
  if (← at? "interface") && (← isWord 1) then
    return .interface (← interface first exported)
  else if (← at? "type") && (← isWord 1) &&
    ((← textAt 2) = "=" || (← textAt 2) = "<") then
    return .typeAlias (← aliasItem first exported)
  else
    moveTo start
    opaqueItem first

def items : Nat → Machine (List Item)
  | 0 => return []
  | bound + 1 => do
    if ← atEnd then return []
    else if ← at? ";" then
      advance
      items bound
    else
      let first ← item
      return first :: (← items bound)

end Machine

/-! ## Whole texts -/

/-- The entries of a text, on a tape. -/
def tapeOfText (overflow : Overflow) (text : List Char) :
    Attempt SyntaxError Tape := do
  let table ← Attempt.need (lineTable? overflow text 0 0 text)
  return ⟨text, table, ← scan overflow text table⟩

def Tape.items (tape : Tape) : Attempt SyntaxError (List Item) := do
  let (list, _) ← Machine.items tape.entries.length tape 0
  return list

/-- The items of a text. -/
def itemsOfText (overflow : Overflow) (text : List Char) :
    Attempt SyntaxError (List Item) := do
  (← tapeOfText overflow text).items

end ShapeMend.Script.Checked
