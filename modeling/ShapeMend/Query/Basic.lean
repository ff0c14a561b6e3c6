import ShapeMend.Json.Read
import ShapeMend.Query.Value
import ShapeMend.Text.Quoting

/-!
# Queries

A query selects values from a document.  It has any number of results, each of
them a value or a failure, and it is taken apart by `outcomes`.  A failure does
not end the results: others may follow it, and it may meet the results of
another query like any of them.  An answer is what the text of a result reads
back as, so a result that has no JSON text or is nested too deep to be read is a
failure as well.
-/

namespace ShapeMend

mutual

inductive Query where
  | identity
  | empty
  | constant (value : Query.Value)
  | negate (query : Query)
  /-- The path is followed from every result of the base. -/
  | follow (base : Query) (path : Query.Path)
  /-- The results up to the first failure. -/
  | attempt (query : Query)
  | pipe (first next : Query)
  | both (first second : Query)
  | collect (query : Query)
  /-- The objects of the base with one more member. -/
  | member (base : Query) (key : String) (value : Query)
  | select (condition : Query)
  | compare (equal : Bool) (left right : Query)

inductive Query.Path where
  | here
  | step (first : Query.Step) (optional : Bool) (rest : Query.Path)

inductive Query.Step where
  | index (key : Query)
  | sliceFrom (start : Query)
  | sliceTo (stop : Query)
  | slice (start stop : Query)
  | each

end

inductive QueryError where
  | malformed
  | undefined (name : String)
  | noNumber (value : Query.Value)
  | noIndex (value key : Query.Value)
  | noSlice (value : Query.Value)
  | noBound (value : Query.Value)
  | noItems (value : Query.Value)
  | unreadable (error : Json.ReadError)

def QueryError.message : QueryError → String
  | malformed => "malformed query"
  | undefined name => "undefined name " ++ Text.ticked name
  | noNumber value => "cannot negate " ++ value.text
  | noIndex value key => "cannot index " ++ value.text ++ " with " ++ key.text
  | noSlice value => "cannot slice " ++ value.text
  | noBound value => "cannot slice at " ++ value.text
  | noItems value => "cannot iterate over " ++ value.text
  | unreadable error => "result cannot be read: " ++ error.message

namespace Query

/-! ## Results -/

abbrev OutcomesOf (α : Type) := List (Except QueryError α)

abbrev Outcomes := OutcomesOf Value

def andThen {α β : Type} (outcomes : OutcomesOf α)
    (next : α → OutcomesOf β) : OutcomesOf β :=
  outcomes.flatMap fun
    | .ok value => next value
    | .error error => [.error error]

/-- Every outcome on the left with every one on the right, the left one changing
last.  A failure on the left wins, but only where there is an outcome on the
right. -/
def across {α β γ : Type} (lefts : OutcomesOf α) (rights : OutcomesOf β)
    (combine : α → β → Except QueryError γ) : OutcomesOf γ :=
  lefts.flatMap fun left => rights.map fun right => do
    combine (← left) (← right)

def gather {α : Type} (outcomes : OutcomesOf α) : Except QueryError (List α) :=
  outcomes.mapM id

/-! ## Moves

A move is a step whose key or bounds are known. -/

inductive Move where
  | index (key : Value)
  | slice (start stop : Option Value)
  | each

def position? (length : Nat) (position : Int) : Option Nat :=
  if 0 ≤ position then some position.toNat
  else if -position ≤ length then some (length - (-position).toNat)
  else none

def clip (length : Nat) (bound : Int) : Nat :=
  min ((position? length bound).getD 0) length

def sliceOf {α : Type} (items : List α) (start stop : Option Int) : List α :=
  let first := (start.map (clip items.length)).getD 0
  let last := (stop.map (clip items.length)).getD items.length
  (items.drop first).take (last - first)

def bound (value : Value) : Except QueryError Int :=
  match value.word? with
  | some position => .ok position
  | none => .error (.noBound value)

namespace Move

def apply (value : Value) : Move → Except QueryError (List Value)
  | .index key =>
    match value, key with
    | .array items, .number position =>
      match position.word? with
      | some position =>
        .ok [((position? items.length position).bind
          fun n => items[n]?).getD .null]
      | none => .error (.noIndex value key)
    | .object members, .string name =>
      .ok [(Keyed.lookup name members).getD .null]
    | _, _ => .error (.noIndex value key)
  | .slice start stop =>
    match value with
    | .array items => do
      return [.array (sliceOf items (← start.mapM bound) (← stop.mapM bound))]
    | .string text => do
      return [.string (String.ofList
        (sliceOf text.toList (← start.mapM bound) (← stop.mapM bound)))]
    | _ => .error (.noSlice value)
  | .each =>
    match value with
    | .array items => .ok items
    | .object members => .ok (members.map (·.2))
    | _ => .error (.noItems value)

def outcomes (move : Move) (optional : Bool) (value : Value) : Outcomes :=
  match move.apply value with
  | .ok results => results.map .ok
  | .error error => if optional then [] else [.error error]

def followAll : List (Move × Bool) → Value → Outcomes
  | [], value => [.ok value]
  | (move, optional) :: moves, value =>
    andThen (move.outcomes optional value) (followAll moves)

end Move

/-! ## Evaluation -/

def negated : Value → Except QueryError Value
  | .number amount => .ok (.number amount.negated)
  | value => .error (.noNumber value)

def withMember (key : String) (base value : Value) : Except QueryError Value :=
  match base with
  | .object members => .ok (.object (Keyed.put key value members))
  | other => .ok other

mutual

def outcomes (value : Value) : Query → Outcomes
  | .identity => [.ok value]
  | .empty => []
  | .constant result => [.ok result]
  | .negate query =>
    andThen (outcomes value query) fun result => [negated result]
  | .follow base path =>
    andThen (outcomes value base) fun start =>
      andThen (walks value path) fun walk => Move.followAll walk start
  | .attempt query => (outcomes value query).takeWhile (·.isOk)
  | .pipe first next =>
    andThen (outcomes value first) fun result => outcomes result next
  | .both first second => outcomes value first ++ outcomes value second
  | .collect query => [(gather (outcomes value query)).map .array]
  | .member base key added =>
    across (outcomes value base) (outcomes value added) (withMember key)
  | .select condition =>
    andThen (outcomes value condition) fun result =>
      if result.holds then [.ok value] else []
  | .compare equal left right =>
    across (outcomes value left) (outcomes value right) fun a b =>
      .ok (.bool (a.agrees b = equal))

def walks (value : Value) : Path → OutcomesOf (List (Move × Bool))
  | .here => [.ok []]
  | .step first optional rest =>
    across (moves value first) (walks value rest) fun move walk =>
      .ok ((move, optional) :: walk)

def moves (value : Value) : Step → OutcomesOf Move
  | .index key => (outcomes value key).map (·.map .index)
  | .sliceFrom start =>
    (outcomes value start).map (·.map fun start => .slice (some start) none)
  | .sliceTo stop =>
    (outcomes value stop).map (·.map fun stop => .slice none (some stop))
  | .slice start stop =>
    across (outcomes value start) (outcomes value stop) fun start stop =>
      .ok (.slice (some start) (some stop))
  | .each => [.ok .each]

end

def reread (value : Value) : Except QueryError Json :=
  (Json.ofText value.text).mapError .unreadable

def answers (query : Query) (value : Json) : Except QueryError (List Json) := do
  (← gather (query.outcomes (.ofJson value))).mapM reread

end Query

end ShapeMend
