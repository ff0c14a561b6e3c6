import ShapeMend.Query.Basic
import ShapeMend.Query.Token

/-!
# Reading queries

A query is a row of pipes; between pipes, commas; between commas, comparisons
from left to right; their sides are terms, each with a path behind it.  Brackets
of any kind hold whole queries again.
-/

namespace ShapeMend.Query

abbrev Reader := StateT (List Token) (Except QueryError)

namespace Reader

def malformed {α : Type} : Reader α := throw .malformed

def peek : Reader (Option Token) := return (← get).head?

def advance : Reader Unit := modify (·.drop 1)

def skip (text : String) : Reader Bool := do
  if (← peek) = some (.symbol text) then
    advance
    return true
  else return false

def expect (text : String) : Reader Unit := do
  unless ← skip text do malformed

def remaining : Reader Nat := return (← get).length

/-- Consumes the question marks that are next, and answers whether there was
one.  The bound is their number at most. -/
def questionMarks : Nat → Reader Bool
  | 0 => return false
  | bound + 1 => do
    if ← skip "?" then
      discard (questionMarks bound)
      return true
    else return false

def optional : Reader Bool := do questionMarks (← remaining)

/-- One or more queries with a separator between them, joined to the right.  The
bound is the number of separators at most. -/
def joined (separator : String) (join : Query → Query → Query)
    (item : Reader Query) :
    Nat → Reader Query
  | 0 => item
  | bound + 1 => do
    let first ← item
    if ← skip separator then
      return join first (← joined separator join item bound)
    else return first

section

variable (whole single : Reader Query)

/-! ## Paths -/

def bracketed : Reader Step := do
  if ← skip "]" then return .each
  else if ← skip ":" then
    let stop ← whole
    expect "]"
    return .sliceTo stop
  else
    let first ← whole
    if ← skip ":" then
      if ← skip "]" then return .sliceFrom first
      else
        let stop ← whole
        expect "]"
        return .slice first stop
    else
      expect "]"
      return .index first

def step? : Reader (Option Step) := do
  match ← get with
  | .field name :: _ =>
    advance
    return some (.index (.constant (.string name)))
  | .symbol "." :: .quoted key :: _ =>
    advance
    advance
    return some (.index (.constant (.string key)))
  | .symbol "[" :: _ =>
    advance
    return some (← bracketed whole)
  | _ => return none

/-- The steps that follow, each with its question marks.  The bound is their
number at most. -/
def path : Nat → Reader Path
  | 0 => return .here
  | bound + 1 => do
    match ← step? whole with
    | some step =>
      let optional ← optional
      return .step step optional (← path bound)
    | none => return .here

/-! ## Terms -/

/-- The members of an object after its brace.  A key alone stands for the member
of that name.  The bound is their number at most. -/
def members : Nat → Query → Reader Query
  | 0, _ => malformed
  | bound + 1, base => do
    let key ← match ← peek with
      | some (.word key) | some (.quoted key) => pure key
      | _ => malformed
    advance
    let value ←
      if ← skip ":" then single
      else
        pure
          (.follow .identity
            (.step (.index (.constant (.string key))) false .here))
    let query := .member base key value
    if ← skip "," then
      if ← skip "\x7d" then return query else members bound query
    else
      expect "\x7d"
      return query

def closed : Reader Query := do
  let query ← whole
  expect ")"
  return query

def named (name : String) : Reader Query := do
  match name with
  | "null" => return .constant .null
  | "true" => return .constant (.bool true)
  | "false" => return .constant (.bool false)
  | "empty" => return .empty
  | "select" =>
    if ← skip "(" then return .select (← closed whole)
    else throw (.undefined name)
  | _ => throw (.undefined name)

/-- A query without the path behind it.  Where a path begins at once, it leads
on from the document. -/
def term : Reader Query := do
  match ← get with
  | .field _ :: _ => return .identity
  | .symbol "." :: .quoted _ :: _ => return .identity
  | .symbol "." :: _ =>
    advance
    return .identity
  | .word name :: _ =>
    advance
    named whole name
  | .variable name :: _ => throw (.undefined ("$" ++ name))
  | .numeral text :: _ =>
    advance
    return .constant (.number (.ofNumeral text))
  | .quoted text :: _ =>
    advance
    return .constant (.string text)
  | .symbol "(" :: _ =>
    advance
    closed whole
  | .symbol "[" :: _ =>
    advance
    if ← skip "]" then return .constant (.array [])
    let query ← whole
    expect "]"
    return .collect query
  | .symbol "\x7b" :: _ =>
    advance
    if ← skip "\x7d" then return .constant (.object [])
    members single (← remaining) (.constant (.object []))
  | _ => malformed

/-- A term with a path, behind any number of minus signs.  The bound is their
number at most. -/
def operand : Nat → Reader Query
  | 0 => malformed
  | bound + 1 => do
    if ← skip "-" then return .negate (← operand bound)
    else
      let base ← term whole single
      let base := if ← optional then .attempt base else base
      return .follow base (← path whole (← remaining))

def comparisons : Nat → Query → Reader Query
  | 0, left => return left
  | bound + 1, left => do
    if ← skip "==" then
      comparisons bound
        (.compare true left (← operand whole single (← remaining)))
    else if ← skip "!=" then
      comparisons bound
        (.compare false left (← operand whole single (← remaining)))
    else return left

def comparison : Reader Query := do
  let left ← operand whole single (← remaining)
  comparisons whole single (← remaining) left

def row : Reader Query := do
  joined "," .both (comparison whole single) (← remaining)

end

mutual

def query : Nat → Reader Query
  | 0 => malformed
  | depth + 1 =>
    do joined "|" .pipe (row (query depth) (query.single depth)) (← remaining)

def query.single : Nat → Reader Query
  | 0 => malformed
  | depth + 1 => do
    joined "|" .pipe (comparison (query depth) (query.single depth))
      (← remaining)

end

end Reader

def ofText (text : String) : Except QueryError Query := do
  match Token.ofText text with
  | none => throw .malformed
  | some tokens =>
    let (query, rest) ← (Reader.query (tokens.length + 1)).run tokens
    if rest.isEmpty then return query else throw .malformed

end ShapeMend.Query
