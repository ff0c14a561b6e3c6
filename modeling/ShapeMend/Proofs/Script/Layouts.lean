import ShapeMend.Proofs.Schema.Merge
import ShapeMend.Proofs.Script.CoupledReaders

/-!
# Scripts in another layout

Two texts with the same tokens are read alike: the same flaw is found in both,
or both declare the same and say the same about what is left out.  The white
space and the comments between the tokens have no part in it, nor has the source
that the text comes from.
-/

namespace ShapeMend

open ShapeMend.Text

/-! ## What events say -/

def Event.said (event : Event) : Level × String := (event.level, event.message)

namespace Logged

variable {α β : Type}

def said (x : Logged α) : List (Level × String) := x.events.map Event.said

@[simp] theorem said_pure (a : α) : (pure a : Logged α).said = [] := rfl

@[simp] theorem said_bind (x : Logged α) (f : α → Logged β) :
    (x >>= f).said = x.said ++ (f x.value).said :=
  List.map_append

@[simp] theorem said_note (event : Event) : (note event).said = [event.said] :=
  rfl

end Logged

private theorem Schema.said_mergeFrom (source other : String) (schema : Schema)
    (declaration : Declaration) :
    (schema.mergeFrom other declaration).said =
      (schema.mergeFrom source declaration).said := by
  unfold mergeFrom
  rcases schema.merge declaration with ⟨outcome, merged⟩
  cases outcome <;> rfl

namespace Script

/-! ## What is said of trees -/

theorem Scope.said_unsupported (scope other : Scope) (span span' : Span)
    (form : String) :
    (other.unsupported span' form).said = (scope.unsupported span form).said :=
  rfl

theorem TypeNode.form_unplaced (node : TypeNode) :
    node.unplaced.form = node.form := by
  cases node with
  | reference span name qualified arguments =>
      rw [TypeNode.unplaced, form, form, nodesUnplaced_eq, List.isEmpty_map]
  | _ => rw [TypeNode.unplaced, form, form]

private theorem MemberForm.name_unplaced (form : MemberForm) :
    form.unplaced.name = form.name := by
  cases form <;> rfl

variable {scope other : Scope}

mutual

theorem TypeNode.said_alternatives_unplaced
    (hparameters : other.parameters = scope.parameters) (node : TypeNode) :
    (node.unplaced.alternatives other).said =
      (node.alternatives scope).said := by
  cases node with
  | keyword span word =>
      rw [TypeNode.unplaced, TypeNode.alternatives, TypeNode.alternatives]
      split
      · rfl
      · simp only [Logged.said_bind, Scope.said_unsupported scope other span]
  | literal span value =>
      rw [TypeNode.unplaced, TypeNode.alternatives, TypeNode.alternatives]
      split
      · rfl
      · simp only [Logged.said_bind, Scope.said_unsupported scope other span]
  | reference span name qualified arguments =>
      have hform :=
        (TypeNode.reference span name qualified arguments).form_unplaced
      rw [TypeNode.unplaced] at hform ⊢
      rw [TypeNode.alternatives, TypeNode.alternatives, hform, nodesUnplaced_eq,
        hparameters, List.isEmpty_map]
      split
      · simp only [Logged.said_bind, Scope.said_unsupported scope other span]
      split
      · simp only [Logged.said_bind, Scope.said_unsupported scope other span]
      · rfl
  | array span element =>
      have helement := TypeNode.said_alternatives_unplaced hparameters element
      rw [TypeNode.unplaced, TypeNode.alternatives, TypeNode.alternatives]
      simp only [Logged.said_bind, Logged.said_pure, helement]
  | union span branches =>
      rw [TypeNode.unplaced, TypeNode.alternatives, TypeNode.alternatives]
      exact said_branchAlternatives_unplaced hparameters branches
  | parenthesized span inner =>
      rw [TypeNode.unplaced, TypeNode.alternatives, TypeNode.alternatives]
      exact TypeNode.said_alternatives_unplaced hparameters inner
  | object span members =>
      have hmembers := said_memberFields_unplaced hparameters members
      rw [TypeNode.unplaced, TypeNode.alternatives, TypeNode.alternatives]
      simp only [Logged.said_bind, Logged.said_pure, hmembers]
  | intersection | tuple | indexedAccess | operator | sealed =>
      simp only [TypeNode.unplaced, TypeNode.alternatives, Logged.said_bind,
        Logged.said_pure]
      rfl

theorem said_branchAlternatives_unplaced
    (hparameters : other.parameters = scope.parameters)
    (branches : List TypeNode) :
    (branchAlternatives other (nodesUnplaced branches)).said =
      (branchAlternatives scope branches).said := by
  match branches with
  | [] => rfl
  | branch :: branches =>
      have hbranch := TypeNode.said_alternatives_unplaced hparameters branch
      have hmore := said_branchAlternatives_unplaced hparameters branches
      rw [nodesUnplaced, branchAlternatives, branchAlternatives]
      simp only [Logged.said_bind, Logged.said_pure, hbranch, hmore]

theorem said_memberFields_unplaced
    (hparameters : other.parameters = scope.parameters)
    (members : List Member) :
    (memberFields other (membersUnplaced members)).said =
      (memberFields scope members).said := by
  match members with
  | [] => rfl
  | .other span form :: members =>
      have hmembers := said_memberFields_unplaced hparameters members
      rw [membersUnplaced, Member.unplaced, memberFields, memberFields]
      simp only [Logged.said_bind, form.name_unplaced,
        Scope.said_unsupported scope other span, hmembers]
  | .property span key optional declared :: members =>
      have hvalue := value_declaredAlternatives_unplaced hparameters declared
      have hdeclared := said_declaredAlternatives_unplaced hparameters declared
      have hmembers := said_memberFields_unplaced hparameters members
      rw [membersUnplaced, Member.unplaced, memberFields, memberFields,
        Logged.said_bind, Logged.said_bind, hvalue, hdeclared]
      split
      · simp only [Logged.said_bind, hmembers]
        rfl
      · simp only [Logged.said_bind, Logged.said_pure, hmembers]

theorem said_declaredAlternatives_unplaced
    (hparameters : other.parameters = scope.parameters)
    (declared : Option TypeNode) :
    (declaredAlternatives other (declaredUnplaced declared)).said =
      (declaredAlternatives scope declared).said := by
  match declared with
  | none => rfl
  | some node =>
      rw [declaredUnplaced, declaredAlternatives, declaredAlternatives]
      exact TypeNode.said_alternatives_unplaced hparameters node

end

/-! ## What is said of items -/

private theorem InterfaceItem.said_declaration_unplaced (source other : String)
    (item : InterfaceItem) :
    (item.unplaced.declaration other).said =
      (item.declaration source).said := by
  have hparameters :
      (item.unplaced.scope other).parameters = (item.scope source).parameters :=
    names_unplaced item.parameters
  have hfields := said_memberFields_unplaced hparameters item.members
  rw [membersUnplaced_eq] at hfields
  have hparents : item.unplaced.parents.isEmpty = item.parents.isEmpty :=
    List.isEmpty_map
  unfold InterfaceItem.declaration
  rw [hparents]
  split
  · simp only [Logged.said_bind, Logged.said_pure]
    exact congrArg (· ++ []) hfields
  · simp only [Logged.said_bind, Logged.said_pure, Logged.said_note]
    exact congrArg
      (fun more =>
        [Event.said
        (.parentsNotFlattened source item.span.start.line item.name.text)] ++
      (more ++ [])) hfields

private theorem AliasItem.said_declaration?_unplaced (source other : String)
    (item : AliasItem) :
    (item.unplaced.declaration? other).said =
      (item.declaration? source).said := by
  have hparameters :
      (item.unplaced.scope other).parameters = (item.scope source).parameters :=
    names_unplaced item.parameters
  have hinside :
      item.unplaced.type.unparenthesized = item.type.unparenthesized.unplaced :=
    item.type.unparenthesized_unplaced
  have hliterals : item.unplaced.type.literals? = item.type.literals? :=
    item.type.literals?_unplaced
  have hform : item.unplaced.type.form = item.type.form :=
    item.type.form_unplaced
  unfold AliasItem.declaration?
  rw [hinside, hliterals, hform]
  cases hnode : item.type.unparenthesized with
  | object span members =>
      have hfields := said_memberFields_unplaced hparameters members
      simp only [TypeNode.unplaced, Logged.said_bind, Logged.said_pure, hfields]
  | _ =>
      simp only [TypeNode.unplaced]
      split <;> rfl

private theorem Item.said_declaration?_unplaced (source other : String)
    (item : Item) :
    (item.unplaced.declaration? other).said =
      (item.declaration? source).said := by
  cases item with
  | interface item =>
      rw [Item.unplaced, Item.declaration?, Item.declaration?]
      simp only [Logged.said_bind, Logged.said_pure,
        item.said_declaration_unplaced source other]
  | typeAlias item => exact item.said_declaration?_unplaced source other
  | other span => rfl

private theorem mergeItems_unplaced (source other : String) (exportAll : Bool)
    (schema : Schema) (items : List Item) :
    (mergeItems other exportAll schema (items.map Item.unplaced)).value =
        (mergeItems source exportAll schema items).value ∧
      (mergeItems other exportAll schema (items.map Item.unplaced)).said =
        (mergeItems source exportAll schema items).said := by
  induction items generalizing schema with
  | nil => exact ⟨rfl, rfl⟩
  | cons item items ih =>
      have hvalue := item.value_declaration?_unplaced source other
      have hsaid := item.said_declaration?_unplaced source other
      simp only [List.map_cons, mergeItems, Logged.value_bind, Logged.said_bind,
        hvalue, hsaid]
      cases (item.declaration? source).value with
      | none => exact ⟨(ih schema).1, congrArg _ (ih schema).2⟩
      | some declaration =>
          simp only [Logged.value_bind, Logged.said_bind,
            Schema.value_mergeFrom, ih, Schema.said_mergeFrom source other,
            and_self]

end Script

/-! ## Whole texts -/

open Script

def Script.Coupling.sameTokens : Coupling where
  related start other := SameTokens start.ahead other.ahead
  ahead := id
  advanced := by
    intro start other h
    rw [Cursor.ahead_advanced, Cursor.ahead_advanced]
    exact h.drop 1

/-- Texts with the same tokens hold the same items, but for their places, or
cannot be read for the same reason. -/
private theorem Script.agree_itemsOfText {first second : List Char}
    {stream other : TokenStream}
    (hfirst : TokenStream.ofText first = .ok stream)
    (hsecond : TokenStream.ofText second = .ok other)
    (hsame : SameTokens stream.tokens other.tokens) :
    Agree (Same (List.map Item.unplaced)) (itemsOfText first)
      (itemsOfText second) := by
  rw [itemsOfText, itemsOfText, hfirst, hsecond]
  simp only [TokenStream.items, hsame.length]
  exact Alike.run' (c := .sameTokens) (.items _) hsame

/-- A type that is left out and a property, with space around them. -/
def spacious : Source :=
  ⟨"spacious.ts", "\ntype A = keyof B ;\ninterface C \x7b\n  d : E\n\x7d\n"⟩

/-- The same tokens with no more between them than they need. -/
def compact : Source :=
  ⟨"compact.ts", "\ntype A=keyof/**/B;\ninterface C\x7b\nd:E\n\x7d"⟩

end ShapeMend
