import ShapeMend.Schema.Basic
import ShapeMend.Text.Position
import ShapeMend.Text.Quoting

/-!
# Events

What is left out, merged or assumed on the way is recorded as events, in order.
A computation with events is a value together with the events of its making.
-/

namespace ShapeMend

open ShapeMend.Text

inductive Level where
  | warning
  | detail
  deriving DecidableEq

inductive Event where
  | unsupported (source : String) (position : Position) (form : String)
  | aliasSkipped (source : String) (position : Position) (name form : String)
  | parentsNotFlattened (source : String) (line : Nat) (name : String)
  | fieldOmitted (source : String) (line : Nat) (key : String)
  | repeated (source name : String)
  | conflict (source name : String) (kind : DeclarationKind)
  | unresolvedKept (name : String)
  | unresolvedFilled (name : String)
  | undeclaredEmitted (name : String)
  | sourceUnchanged (source : String)
  | sourceRead (source : String) (count : Nat)
  deriving DecidableEq

namespace Event

def level : Event → Level
  | unsupported .. | aliasSkipped .. | conflict .. | undeclaredEmitted .. =>
    .warning
  | _ => .detail

def message : Event → String
  | unsupported _ _ form => "unsupported " ++ form ++ ", dropped"
  | aliasSkipped _ _ name form =>
    "type alias " ++ Text.ticked name ++
      " is not an object type or a literal union (" ++ form ++ "), skipped"
  | parentsNotFlattened _ _ name =>
    "inherited members of " ++ Text.ticked name ++ " are not flattened"
  | fieldOmitted _ _ key =>
    "field " ++ Text.ticked key ++ " has no supported type, omitted"
  | repeated _ name => "merged repeated declaration " ++ Text.ticked name
  | conflict _ name kind =>
    "declaration " ++ Text.ticked name ++ " (" ++ kind.keyword
      ++ ") conflicts with an earlier declaration of that name, kept the first"
  | unresolvedKept name =>
    "unresolved reference " ++ Text.ticked name ++ ", kept value as is"
  | unresolvedFilled name =>
    "unresolved reference " ++ Text.ticked name ++
      ", filled with an empty object"
  | undeclaredEmitted name =>
    "reference to undeclared type " ++ Text.ticked name ++
      " emitted as undefined"
  | sourceUnchanged _ => "unchanged, using cached declarations"
  | sourceRead _ _ => "parsed declarations"

def source? : Event → Option String
  | unsupported source _ _ | aliasSkipped source _ _ _ | parentsNotFlattened
    source _ _
  | fieldOmitted source _ _ | repeated source _ | conflict source _ _
  | sourceUnchanged source | sourceRead source _ => some source
  | _ => none

def line? : Event → Option Nat
  | unsupported _ position _ | aliasSkipped _ position _ _ => some position.line
  | parentsNotFlattened _ line _ | fieldOmitted _ line _ => some line
  | _ => none

def column? : Event → Option Nat
  | unsupported _ position _ | aliasSkipped _ position _ _ =>
    some position.column
  | _ => none

def count? : Event → Option Nat
  | sourceRead _ count => some count
  | _ => none

end Event

structure Logged (α : Type) where
  value : α
  events : List Event

namespace Logged

instance : Monad Logged where
  pure value := ⟨value, []⟩
  bind first next :=
    let second := next first.value
    ⟨second.value, first.events ++ second.events⟩

def note (event : Event) : Logged Unit := ⟨(), [event]⟩

@[simp] theorem value_pure {α : Type} (a : α) : (pure a : Logged α).value = a :=
  rfl

@[simp] theorem events_pure {α : Type} (a : α) :
    (pure a : Logged α).events = [] := rfl

@[simp] theorem value_bind {α β : Type} (x : Logged α) (f : α → Logged β) :
    (x >>= f).value = (f x.value).value := rfl

@[simp] theorem events_bind {α β : Type} (x : Logged α) (f : α → Logged β) :
    (x >>= f).events = x.events ++ (f x.value).events := rfl

theorem pure_bind {α β : Type} (a : α) (f : α → Logged β) :
    (pure a : Logged α) >>= f = f a := rfl

theorem bind_assoc {α β γ : Type} (x : Logged α) (f : α → Logged β)
    (g : β → Logged γ) : x >>= f >>= g = x >>= fun a => f a >>= g :=
  congrArg (Logged.mk _) (List.append_assoc ..)

@[simp] theorem events_note (event : Event) : (note event).events = [event] :=
  rfl

theorem value_mapM_loop {α β : Type} (f : α → Logged β) (items : List α)
    (done : List β) :
    (List.mapM.loop f items done).value =
      done.reverse ++ items.map fun item => (f item).value := by
  induction items generalizing done with
  | nil => simp [List.mapM.loop]
  | cons item items ih => simp [List.mapM.loop, ih]

@[simp] theorem value_mapM {α β : Type} (f : α → Logged β) (items : List α) :
    (items.mapM f).value = items.map fun item => (f item).value := by
  simp [List.mapM, value_mapM_loop]

theorem mapM_loop_pure {α : Type} (items done : List α) :
    List.mapM.loop (pure : α → Logged α) items done =
      pure (done.reverse ++ items) := by
  induction items generalizing done with
  | nil => simp [List.mapM.loop]
  | cons item items ih => simp [List.mapM.loop, pure_bind, ih]

theorem mapM_pure {α : Type} (items : List α) :
    items.mapM (pure : α → Logged α) = pure items :=
  mapM_loop_pure items []

end Logged

def Schema.mergeFrom (source : String) (schema : Schema)
    (declaration : Declaration) : Logged Schema :=
  let (outcome, merged) := schema.merge declaration
  match outcome with
  | .inserted => pure merged
  | .appended => ⟨merged, [.repeated source declaration.name]⟩
  | .conflict => ⟨merged, [.conflict source declaration.name declaration.kind]⟩

end ShapeMend
