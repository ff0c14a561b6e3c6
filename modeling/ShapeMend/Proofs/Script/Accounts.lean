import ShapeMend.Proofs.Schema.Merge
import ShapeMend.Proofs.Script.Nodes

/-!
# Accounts of scripts

Every part of an interface or an alias is kept or noted, and nothing else is.
The rules below say so part by part, over the leaves of types and not along the
recursion that reads them: which part gives a shape, which one gives an event,
and in which order.
-/

namespace ShapeMend

namespace Script

open ShapeMend.Text ShapeMend.Number

/-! ## Leaves -/

mutual

/-- The types that are reached through lists, unions and parentheses only, from
left to right, each with whether a list lies above it. -/
def TypeNode.leaves (inList : Bool) : TypeNode → List (Bool × TypeNode)
  | .array _ element => element.leaves true
  | .union _ branches => branchLeaves inList branches
  | .parenthesized _ inner => inner.leaves inList
  | node => [(inList, node)]

def branchLeaves (inList : Bool) : List TypeNode → List (Bool × TypeNode)
  | [] => []
  | branch :: branches => branch.leaves inList ++ branchLeaves inList branches

end

inductive LiteralValue.Says : LiteralValue → Literal → Prop
  | string (value : String) : Says (.string value) (.string value)
  | number {value : Binary64} (hfinite : value.isFinite) :
    Says (.number value) (.number value)
  | boolean (value : Bool) : Says (.boolean value) (.boolean value)

inductive TypeNode.Refused (scope : Scope) : TypeNode → String → Prop
  | keyword (span : Span) {word : String}
    (hword : ∀ primitive : Primitive, primitive.keyword ≠ word) :
    Refused scope (.keyword span word) (Text.ticked word ++ " type")
  | outOfRange (span : Span) {value : Binary64}
      (hinfinite : value.isFinite = false) :
    Refused scope (.literal span (.number value))
      "out-of-range numeric literal type"
  | bigInteger (span : Span) (numeral : String) :
    Refused scope (.literal span (.bigInteger numeral)) "bigint literal type"
  | instantiated (span : Span) (name : String) {qualified : Bool}
      {arguments : List TypeNode}
    (h : qualified ∨ arguments ≠ []) :
    Refused scope (.reference span name qualified arguments)
      (TypeNode.reference span name qualified arguments).form
  | parameter (span : Span) {name : String} (hname : name ∈ scope.parameters) :
    Refused scope (.reference span name false [])
      ("reference to type parameter " ++ Text.ticked name)
  | intersection (span : Span) (parts : List TypeNode) :
    Refused scope (.intersection span parts) "intersection type"
  | tuple (span : Span) (elements : List TypeNode) :
      Refused scope (.tuple span elements) "tuple type"
  | indexedAccess (span : Span) (object index : TypeNode) :
    Refused scope (.indexedAccess span object index) "indexed access type"
  | operator (span : Span) (operator : TypeOperator) (operand : TypeNode) :
    Refused scope (.operator span operator operand) operator.name
  | sealed (span : Span) (form : SealedForm) :
      Refused scope (.sealed span form) form.name

mutual

inductive LeafGives (scope : Scope) :
    TypeNode → Option Shape → List Event → Prop
  | primitive (span : Span) {word : String} {primitive : Primitive}
    (hword : primitive.keyword = word) :
    LeafGives scope (.keyword span word) (some (.primitive primitive)) []
  | literal (span : Span) {value : LiteralValue} {literal : Literal}
    (hvalue : value.Says literal) :
    LeafGives scope (.literal span value) (some (.literal literal)) []
  | reference (span : Span) {name : String} (hname : name ∉ scope.parameters) :
    LeafGives scope (.reference span name false []) (some (.reference name)) []
  | inline (span : Span) {members : List Member} {fields : List Field}
    {events : List Event} (hmembers : MembersGive scope members fields events) :
    LeafGives scope (.object span members) (some (.inline fields)) events
  | refused {leaf : TypeNode} {form : String} (h : leaf.Refused scope form) :
    LeafGives scope leaf none [.unsupported scope.source leaf.span.start form]

inductive LeavesGive (scope : Scope) :
    List (Bool × TypeNode) → List Alternative → List Event → Prop
  | nil : LeavesGive scope [] [] []
  | cons {inList : Bool} {leaf : TypeNode} {leaves : List (Bool × TypeNode)}
    {shape? : Option Shape} {alternatives : List Alternative}
    {events more : List Event}
    (hleaf : LeafGives scope leaf shape? events)
    (hleaves : LeavesGive scope leaves alternatives more) :
    LeavesGive scope ((inList, leaf) :: leaves)
      ((shape?.map fun shape => ⟨shape, inList⟩).toList ++ alternatives)
      (events ++ more)

/-- What a list of members gives: the fields and the events, in the order of the
members. -/
inductive MembersGive (scope : Scope) :
    List Member → List Field → List Event → Prop
  | nil : MembersGive scope [] [] []
  | field {span : Span} {key : String} {optional : Bool} {node : TypeNode}
    {members : List Member} {alternatives : List Alternative}
    {fields : List Field}
    {events more : List Event}
    (htype : LeavesGive scope (node.leaves false) alternatives events)
    (hne : alternatives ≠ [])
    (hmembers : MembersGive scope members fields more) :
    MembersGive scope (.property span key optional (some node) :: members)
      (⟨key, optional, alternatives⟩ :: fields) (events ++ more)
  | omitted {span : Span} {key : String} {optional : Bool} {node : TypeNode}
    {members : List Member} {fields : List Field} {events more : List Event}
    (htype : LeavesGive scope (node.leaves false) [] events)
    (hmembers : MembersGive scope members fields more) :
    MembersGive scope
      (.property span key optional (some node) :: members) fields
      (events ++ .fieldOmitted scope.source span.start.line key :: more)
  | untyped {span : Span} {key : String} {optional : Bool}
      {members : List Member}
    {fields : List Field} {more : List Event}
    (hmembers : MembersGive scope members fields more) :
    MembersGive scope (.property span key optional none :: members)
      (⟨key, optional, [Alternative.one (.primitive .any)]⟩ :: fields) more
  | other {span : Span} {form : MemberForm} {members : List Member}
    {fields : List Field} {more : List Event}
    (hmembers : MembersGive scope members fields more) :
    MembersGive scope (.other span form :: members) fields
      (.unsupported scope.source span.start form.name :: more)

end

/-! ## Items -/

inductive TypeNode.Wraps (inner : TypeNode) : TypeNode → Prop
  | same : Wraps inner inner
  | parenthesized {span : Span} {node : TypeNode} (h : Wraps inner node) :
    Wraps inner (.parenthesized span node)

mutual

/-- The types that are reached through unions and parentheses only, from left to
right. -/
def TypeNode.parts : TypeNode → List TypeNode
  | .union _ branches => branchParts branches
  | .parenthesized _ inner => inner.parts
  | node => [node]

def branchParts : List TypeNode → List TypeNode
  | [] => []
  | branch :: branches => branch.parts ++ branchParts branches

end

inductive TypeNode.Spells : TypeNode → Literal → Prop
  | literal (span : Span) {value : LiteralValue} {literal : Literal}
      (h : value.Says literal) :
    Spells (.literal span value) literal

/-- What an item gives: a declaration or none, and the events. -/
inductive Item.Gives (source : String) :
    Item → Option Declaration → List Event → Prop
  | interface (item : InterfaceItem) {fields : List Field} {events : List Event}
    (hmembers : MembersGive (item.scope source) item.members fields events) :
    Gives source (.interface item)
      (some ⟨item.name.text, .interface, item.exported, fields⟩)
      ((if item.parents = [] then []
        else
          [.parentsNotFlattened source item.span.start.line item.name.text]) ++
            events)
  | object (item : AliasItem) {span : Span} {members : List Member}
      {fields : List Field}
    {events : List Event}
    (htype : (TypeNode.object span members).Wraps item.type)
    (hmembers : MembersGive (item.scope source) members fields events) :
    Gives source (.typeAlias item)
      (some ⟨item.name.text, .objectAlias, item.exported, fields⟩) events
  | literals (item : AliasItem) {literals : List Literal}
    (hparts : List.Forall₂ TypeNode.Spells item.type.parts literals) :
    Gives source (.typeAlias item)
      (some ⟨item.name.text, .literalUnion, item.exported,
      [⟨item.name.text, false,
      literals.map fun literal => Alternative.one (.literal literal)⟩]⟩) []
  | skipped (item : AliasItem)
    (hobject : ∀ span members, ¬(TypeNode.object span members).Wraps item.type)
    (hpart : ∃ part ∈ item.type.parts, ∀ literal, ¬part.Spells literal) :
    Gives source (.typeAlias item) none
      [.aliasSkipped source item.type.span.start item.name.text item.type.form]
  | other (span : Span) : Gives source (.other span) none []

/-- What becomes of a schema with one more declaration, and the events. -/
inductive MergeGives (source : String) (schema : Schema)
    (declaration : Declaration) :
    Schema → List Event → Prop
  | inserted {next : Schema} (hnew : schema.find? declaration.name = none)
    (hnext : next.declarations = schema.declarations ++ [declaration]) :
    MergeGives source schema declaration next []
  | extended {first : Declaration} {next : Schema}
      (hfirst : schema.find? declaration.name = some first)
    (hobjects : first.kind.isObject ∧ declaration.kind.isObject)
    (hnext : next.declarations = schema.declarations.map fun other =>
      if other.name = declaration.name then other.extend declaration
      else other) :
    MergeGives source schema declaration
      next [.repeated source declaration.name]
  | refused {first : Declaration}
      (hfirst : schema.find? declaration.name = some first)
    (hunion : ¬(first.kind.isObject ∧ declaration.kind.isObject)) :
    MergeGives source schema declaration schema
      [.conflict source declaration.name declaration.kind]

/-- What becomes of a schema with the declarations of some items, and the
events. -/
inductive ItemsGive (source : String) (exportAll : Bool) :
    Schema → List Item → Schema → List Event → Prop
  | nil {schema : Schema} : ItemsGive source exportAll schema [] schema []
  | without {schema last : Schema} {item : Item} {items : List Item}
      {events more : List Event}
    (hitem : item.Gives source none events)
    (hitems : ItemsGive source exportAll schema items last more) :
    ItemsGive source exportAll schema (item :: items) last (events ++ more)
  | declared {schema next last : Schema} {item : Item} {items : List Item}
      {declaration : Declaration}
    {events merged more : List Event}
    (hitem : item.Gives source (some declaration) events)
    (hmerge : MergeGives source schema
      { declaration with exported := declaration.exported || exportAll }
      next merged)
    (hitems : ItemsGive source exportAll next items last more) :
    ItemsGive source exportAll schema (item :: items) last
      (events ++ (merged ++ more))

/-! ## The account of a script -/

private theorem keyword_of_ofKeyword? (word : String) :
    (∃ primitive,
      Primitive.ofKeyword? word = some primitive ∧ primitive.keyword = word) ∨
      Primitive.ofKeyword? word = none ∧ ∀ primitive : Primitive,
        primitive.keyword ≠ word := by
  cases hword : Primitive.ofKeyword? word with
  | some primitive =>
      exact .inl ⟨primitive, rfl, by simpa using List.find?_some hword⟩
  | none =>
      refine .inr ⟨rfl, ?_⟩
      rintro primitive rfl
      rw [Primitive.ofKeyword?_keyword] at hword
      cases hword

theorem LiteralValue.Says.unique {value : LiteralValue}
    {literal other : Literal} (h : value.Says literal)
    (hother : value.Says other) : literal = other := by
  cases h <;> cases hother <;> rfl

private theorem LiteralValue.Says.toLiteral? {value : LiteralValue}
    {literal : Literal} (h : value.Says literal) :
    value.toLiteral? = some literal := by
  cases h with
  | string value => rfl
  | number hfinite => exact if_pos hfinite
  | boolean value => rfl

theorem LiteralValue.says_or_refused (scope : Scope) (span : Span)
    (value : LiteralValue) :
    (∃ literal, value.toLiteral? = some literal ∧ value.Says literal) ∨
      value.toLiteral? = none ∧
        (TypeNode.literal span value).Refused scope value.name := by
  cases value with
  | string value => exact .inl ⟨.string value, rfl, .string value⟩
  | boolean value => exact .inl ⟨.boolean value, rfl, .boolean value⟩
  | bigInteger numeral => exact .inr ⟨rfl, .bigInteger span numeral⟩
  | number value =>
      rw [LiteralValue.toLiteral?, LiteralValue.name]
      cases hfinite : value.isFinite with
      | true => exact .inl ⟨.number value, rfl, .number hfinite⟩
      | false => exact .inr ⟨rfl, .outOfRange span hfinite⟩

def within (inList : Bool) (alternative : Alternative) : Alternative :=
  { alternative with isArray := alternative.isArray || inList }

private theorem map_within_false (alternatives : List Alternative) :
    alternatives.map (within false) = alternatives := by
  have hid : within false = id := by
    funext alternative
    simp [within]
  rw [hid, List.map_id]

private theorem map_within_array (inList : Bool)
    (alternatives : List Alternative) :
    (alternatives.map fun alternative =>
      { alternative with isArray := true }).map (within inList) =
      alternatives.map (within true) := by
  simp [within]

section

variable {scope : Scope}

private theorem LeavesGive.append {first second : List (Bool × TypeNode)}
    {some more : List Alternative} {events later : List Event}
    (hfirst : LeavesGive scope first some events)
    (hsecond : LeavesGive scope second more later) :
    LeavesGive scope (first ++ second) (some ++ more) (events ++ later) := by
  induction first generalizing some events with
  | nil =>
      cases hfirst
      exact hsecond
  | cons leaf first ih =>
      cases hfirst with
      | cons hleaf hleaves =>
          rw [List.cons_append, List.append_assoc, List.append_assoc]
          exact .cons hleaf (ih hleaves)

private theorem LeavesGive.kept {leaf : TypeNode} {shape : Shape}
    {events : List Event} (inList : Bool)
    (h : LeafGives scope leaf (some shape) events) :
    LeavesGive scope [(inList, leaf)] [⟨shape, inList⟩] events := by
  rw [← List.append_nil events]
  exact .cons h .nil

private theorem LeavesGive.refused {leaf : TypeNode} {form : String}
    (inList : Bool) (h : leaf.Refused scope form) :
    LeavesGive scope [(inList, leaf)] []
      [.unsupported scope.source leaf.span.start form] :=
  .cons (.refused h) .nil

mutual

theorem TypeNode.leavesGive (scope : Scope) (inList : Bool) (node : TypeNode) :
    LeavesGive scope (node.leaves inList)
      ((node.alternatives scope).value.map (within inList))
      (node.alternatives scope).events := by
  cases node with
  | keyword span word =>
      rw [TypeNode.alternatives, TypeNode.leaves]
      · rcases keyword_of_ofKeyword? word
          with ⟨primitive, hfound, hword⟩ | ⟨hfound, hword⟩
        · rw [hfound]
          exact .kept inList (.primitive span hword)
        · rw [hfound]
          exact .refused inList (.keyword span hword)
      all_goals simp
  | literal span value =>
      rw [TypeNode.alternatives, TypeNode.leaves]
      · rcases value.says_or_refused scope span
          with ⟨literal, hfound, hvalue⟩ | ⟨hfound, hrefused⟩
        · rw [hfound]
          exact .kept inList (.literal span hvalue)
        · rw [hfound]
          exact .refused inList hrefused
      all_goals simp
  | reference span name qualified arguments =>
      rw [TypeNode.alternatives, TypeNode.leaves]
      · split
        · next hargs =>
            refine .refused inList (.instantiated span name ?_)
            simpa using hargs
        · next hplain =>
            obtain ⟨rfl, rfl⟩ : qualified = false ∧ arguments = [] := by
              simpa using hplain
            split
            · next hname =>
                  exact .refused inList
                    (.parameter span (List.contains_iff_mem.mp hname))
            · next hname =>
                exact .kept inList
                  (.reference span
                    fun hmem => hname (List.contains_iff_mem.mpr hmem))
      all_goals simp
  | array span element =>
      have helement := TypeNode.leavesGive scope true element
      rw [TypeNode.alternatives, TypeNode.leaves, Logged.value_bind,
        Logged.value_pure, map_within_array, Logged.events_bind,
        Logged.events_pure, List.append_nil]
      exact helement
  | union span branches =>
      rw [TypeNode.alternatives, TypeNode.leaves]
      exact branchLeavesGive scope inList branches
  | parenthesized span inner =>
      rw [TypeNode.alternatives, TypeNode.leaves]
      exact TypeNode.leavesGive scope inList inner
  | object span members =>
      have hmembers := membersGive scope members
      rw [TypeNode.alternatives, TypeNode.leaves]
      · refine .kept inList (.inline span ?_)
        rw [Logged.events_bind, Logged.events_pure, List.append_nil]
        exact hmembers
      all_goals simp
  | intersection span parts => exact .refused inList (.intersection span parts)
  | tuple span elements => exact .refused inList (.tuple span elements)
  | indexedAccess span object index =>
      exact .refused inList (.indexedAccess span object index)
  | operator span operator operand =>
      exact .refused inList (.operator span operator operand)
  | sealed span form => exact .refused inList (.sealed span form)

theorem branchLeavesGive (scope : Scope) (inList : Bool)
    (branches : List TypeNode) :
    LeavesGive scope (branchLeaves inList branches)
      ((branchAlternatives scope branches).value.map (within inList))
      (branchAlternatives scope branches).events := by
  match branches with
  | [] => exact .nil
  | branch :: branches =>
      have hfirst := TypeNode.leavesGive scope inList branch
      have hmore := branchLeavesGive scope inList branches
      have happend := hfirst.append hmore
      rw [branchAlternatives, branchLeaves]
      simpa using happend

private theorem membersGive (scope : Scope) (members : List Member) :
    MembersGive scope members (memberFields scope members).value
      (memberFields scope members).events := by
  match members with
  | [] => exact .nil
  | .other span form :: members =>
      rw [memberFields]
      exact .other (membersGive scope members)
  | .property span key optional none :: members =>
      have hevents :
          (memberFields scope
            (.property span key optional none :: members)).events =
          (memberFields scope members).events := by
        simp [memberFields, declaredAlternatives]
      rw [hevents, memberFields, declaredAlternatives]
      exact .untyped (membersGive scope members)
  | .property span key optional (some node) :: members =>
      have htype := TypeNode.leavesGive scope false node
      have hmembers := membersGive scope members
      rw [map_within_false] at htype
      rw [memberFields, declaredAlternatives, Logged.value_bind,
        Logged.events_bind]
      split
      · next hnone =>
          rw [List.isEmpty_iff] at hnone
          rw [hnone] at htype
          exact .omitted htype hmembers
      · next hsome =>
          rw [List.isEmpty_iff] at hsome
          rw [Logged.events_bind, Logged.events_pure, List.append_nil]
          exact .field htype hsome hmembers

end

/-! ### No other account -/

private theorem TypeNode.Refused.unique {leaf : TypeNode} {form other : String}
    (h : leaf.Refused scope form) (hother : leaf.Refused scope other) :
    form = other := by
  cases h <;> cases hother <;> simp_all

private theorem LeafGives.not_refused {leaf : TypeNode} {shape : Shape}
    {events : List Event} {form : String}
    (h : LeafGives scope leaf (some shape) events) :
    ¬leaf.Refused scope form := by
  intro hrefused
  cases h with
  | literal span hvalue =>
      cases hvalue <;> cases hrefused
      simp_all
  | _ => cases hrefused <;> simp_all

/-- By induction on one account, over leaves, lists of leaves and lists of
members at once. -/
private theorem MembersGive.unique {members : List Member}
    {fields others : List Field} {events more : List Event}
    (h : MembersGive scope members fields events)
    (hother : MembersGive scope members others more) :
    fields = others ∧ events = more := by
  revert others more
  apply @MembersGive.rec scope
    (fun leaf shape? events _ => ∀ {other? more},
      LeafGives scope leaf other? more →
      shape? = other? ∧ events = more)
    (fun leaves alternatives events _ => ∀ {others more},
      LeavesGive scope leaves others more →
      alternatives = others ∧ events = more)
    (fun members fields events _ => ∀ {others more},
      MembersGive scope members others more →
      fields = others ∧ events = more)
  case primitive =>
    intro span word primitive hword other? more hother
    cases hother with
    | primitive _ hother =>
        obtain rfl := Primitive.eq_of_keyword_eq (hword.trans hother.symm)
        exact ⟨rfl, rfl⟩
    | refused hrefused =>
        exact absurd hrefused (LeafGives.primitive span hword).not_refused
  case literal =>
    intro span value literal hvalue other? more hother
    cases hother with
    | literal _ hother =>
        obtain rfl := hvalue.unique hother
        exact ⟨rfl, rfl⟩
    | refused hrefused =>
        exact absurd hrefused (LeafGives.literal span hvalue).not_refused
  case reference =>
    intro span name hname other? more hother
    cases hother with
    | reference => exact ⟨rfl, rfl⟩
    | refused hrefused =>
        exact absurd hrefused (LeafGives.reference span hname).not_refused
  case inline =>
    intro span members fields events hmembers ih other? more hother
    cases hother with
    | inline _ hother =>
        obtain ⟨rfl, rfl⟩ := ih hother
        exact ⟨rfl, rfl⟩
    | refused hrefused =>
        exact absurd hrefused (LeafGives.inline span hmembers).not_refused
  case refused =>
    intro leaf form hrefused other? more hother
    cases other? with
    | none =>
        cases hother with
        | refused hother => exact ⟨rfl, by rw [hrefused.unique hother]⟩
    | some shape => exact absurd hrefused hother.not_refused
  case cons =>
    intro inList leaf leaves shape? alternatives events more hleaf hleaves
      ihLeaf ihLeaves others later hother
    cases hother with
    | cons hleafOther hleavesOther =>
        obtain ⟨rfl, rfl⟩ := ihLeaf hleafOther
        obtain ⟨rfl, rfl⟩ := ihLeaves hleavesOther
        exact ⟨rfl, rfl⟩
  case field =>
    intro span key optional node members alternatives fields events more htype
      hne hmembers ihType
      ihMembers others later hother
    cases hother with
    | field htypeOther hneOther hmembersOther =>
        obtain ⟨rfl, rfl⟩ := ihType htypeOther
        obtain ⟨rfl, rfl⟩ := ihMembers hmembersOther
        exact ⟨rfl, rfl⟩
    | omitted htypeOther => exact absurd (ihType htypeOther).1 hne
  case omitted =>
    intro span key optional node members fields events more htype hmembers
      ihType ihMembers others later
      hother
    cases hother with
    | field htypeOther hneOther =>
        exact absurd (ihType htypeOther).1.symm hneOther
    | omitted htypeOther hmembersOther =>
        obtain ⟨-, rfl⟩ := ihType htypeOther
        obtain ⟨rfl, rfl⟩ := ihMembers hmembersOther
        exact ⟨rfl, rfl⟩
  case untyped =>
    intro span key optional members fields more hmembers ih others later hother
    cases hother with
    | untyped hmembersOther =>
        obtain ⟨rfl, rfl⟩ := ih hmembersOther
        exact ⟨rfl, rfl⟩
  case other =>
    intro span form members fields more hmembers ih others later hother
    cases hother with
    | other hmembersOther =>
        obtain ⟨rfl, rfl⟩ := ih hmembersOther
        exact ⟨rfl, rfl⟩
  case t => exact h
  all_goals
    intro _ _ hother
    cases hother
    exact ⟨rfl, rfl⟩

end

theorem TypeNode.wraps_iff {node : TypeNode} {span : Span}
    {members : List Member} :
    (TypeNode.object span members).Wraps node ↔
      node.unparenthesized = .object span members := by
  fun_induction unparenthesized node with
  | case1 place inner ih =>
      rw [← ih]
      constructor
      · rintro (_ | h)
        exact h
      · exact .parenthesized
  | case2 node hplain =>
      constructor
      · intro h
        cases h with
        | same => rfl
        | parenthesized h => exact (hplain _ _ rfl).elim
      · rintro rfl
        exact .same

private theorem TypeNode.Wraps.parts {node inner : TypeNode}
    (h : inner.Wraps node) : node.parts = inner.parts := by
  induction h with
  | same => rfl
  | parenthesized h ih => rw [TypeNode.parts, ih]

private theorem TypeNode.Spells.unique {part : TypeNode}
    {literal other : Literal} (h : part.Spells literal)
    (hother : part.Spells other) : literal = other := by
  cases h with
  | literal span h =>
      cases hother with
      | literal _ hother => exact h.unique hother

private theorem forall₂_spells_unique {parts : List TypeNode}
    {literals others : List Literal}
    (h : List.Forall₂ TypeNode.Spells parts literals)
    (hother : List.Forall₂ TypeNode.Spells parts others) :
    literals = others := by
  induction h generalizing others with
  | nil =>
      cases hother
      rfl
  | cons hpart hparts ih =>
      cases hother with
      | cons hpartOther hpartsOther =>
          rw [hpart.unique hpartOther, ih hpartsOther]

theorem not_spells_of_forall₂ {parts : List TypeNode} {literals : List Literal}
    (h : List.Forall₂ TypeNode.Spells parts literals) :
    ¬∃ part ∈ parts, ∀ literal, ¬part.Spells literal := by
  rintro ⟨part, hpart, hnone⟩
  obtain ⟨index, hindex, rfl⟩ := List.getElem_of_mem hpart
  exact hnone _ (h.get hindex (h.length_eq ▸ hindex))

private theorem TypeNode.Wraps.not_spells {node : TypeNode} {span : Span}
    {members : List Member} (h : (TypeNode.object span members).Wraps node)
    {literals : List Literal} :
    ¬List.Forall₂ TypeNode.Spells node.parts literals := by
  intro hparts
  rw [h.parts, TypeNode.parts] at hparts
  · refine not_spells_of_forall₂ hparts ⟨_, List.mem_singleton_self _, ?_⟩
    rintro literal ⟨⟩
  all_goals simp

private theorem Item.Gives.unique {source : String} {item : Item}
    {declaration? other? : Option Declaration} {events more : List Event}
    (h : item.Gives source declaration? events)
    (hother : item.Gives source other? more) :
    declaration? = other? ∧ events = more := by
  cases h with
  | interface item hmembers =>
      cases hother with
      | interface _ hother =>
          obtain ⟨rfl, rfl⟩ := hmembers.unique hother
          exact ⟨rfl, rfl⟩
  | object item htype hmembers =>
      cases hother with
      | object _ htypeOther hother =>
          rw [TypeNode.wraps_iff] at htype htypeOther
          obtain ⟨-, rfl⟩ := TypeNode.object.inj (htype.symm.trans htypeOther)
          obtain ⟨rfl, rfl⟩ := hmembers.unique hother
          exact ⟨rfl, rfl⟩
      | literals _ hparts => exact absurd hparts htype.not_spells
      | skipped _ hobject => exact absurd htype (hobject _ _)
  | literals item hparts =>
      cases hother with
      | object _ htype => exact absurd hparts htype.not_spells
      | literals _ hother =>
          obtain rfl := forall₂_spells_unique hparts hother
          exact ⟨rfl, rfl⟩
      | skipped _ _ hpart => exact absurd hpart (not_spells_of_forall₂ hparts)
  | skipped item hobject hpart =>
      cases hother with
      | object _ htype => exact absurd htype (hobject _ _)
      | literals _ hparts => exact absurd hpart (not_spells_of_forall₂ hparts)
      | skipped => exact ⟨rfl, rfl⟩
  | other span =>
      cases hother
      exact ⟨rfl, rfl⟩

private theorem MergeGives.unique {source : String} {schema next other : Schema}
    {declaration : Declaration} {events more : List Event}
    (h : MergeGives source schema declaration next events)
    (hother : MergeGives source schema declaration other more) :
    next = other ∧ events = more := by
  cases h with
  | inserted hnew hnext =>
      cases hother with
      | inserted _ hother =>
          exact ⟨Schema.eq_of_declarations (hnext.trans hother.symm), rfl⟩
      | extended hfirst => simp [hnew] at hfirst
      | refused hfirst => simp [hnew] at hfirst
  | extended hfirst hobjects hnext =>
      cases hother with
      | inserted hnew => simp [hnew] at hfirst
      | extended _ _ hother =>
          exact ⟨Schema.eq_of_declarations (hnext.trans hother.symm), rfl⟩
      | refused hother hunion =>
          obtain rfl := Option.some.inj (hfirst.symm.trans hother)
          exact absurd hobjects hunion
  | refused hfirst hunion =>
      cases hother with
      | inserted hnew => simp [hnew] at hfirst
      | extended hother hobjects =>
          obtain rfl := Option.some.inj (hfirst.symm.trans hother)
          exact absurd hobjects hunion
      | refused => exact ⟨rfl, rfl⟩

private theorem ItemsGive.unique {source : String} {exportAll : Bool}
    {schema last other : Schema} {items : List Item} {events more : List Event}
    (h : ItemsGive source exportAll schema items last events)
    (hother : ItemsGive source exportAll schema items other more) :
    last = other ∧ events = more := by
  induction h generalizing other more with
  | nil =>
      cases hother
      exact ⟨rfl, rfl⟩
  | without hitem hitems ih =>
      cases hother with
      | without hitemOther hitemsOther =>
          obtain ⟨-, rfl⟩ := hitem.unique hitemOther
          obtain ⟨rfl, rfl⟩ := ih hitemsOther
          exact ⟨rfl, rfl⟩
      | declared hitemOther =>
          exact absurd (hitem.unique hitemOther).1 (by simp)
  | declared hitem hmerge hitems ih =>
      cases hother with
      | without hitemOther => exact absurd (hitem.unique hitemOther).1 (by simp)
      | declared hitemOther hmergeOther hitemsOther =>
          obtain ⟨hdeclaration, rfl⟩ := hitem.unique hitemOther
          obtain rfl := Option.some.inj hdeclaration
          obtain ⟨rfl, rfl⟩ := hmerge.unique hmergeOther
          obtain ⟨rfl, rfl⟩ := ih hitemsOther
          exact ⟨rfl, rfl⟩

/-! ### The account that is kept -/

mutual

/-- The literals that are collected are those of all parts, or some part has
none. -/
private theorem TypeNode.spells (node : TypeNode) :
    (∃ literals, node.literals? = some literals ∧
      List.Forall₂ TypeNode.Spells node.parts literals) ∨
    node.literals? = none ∧ ∃ part ∈ node.parts, ∀ literal,
      ¬part.Spells literal := by
  cases node with
  | literal span value =>
      rw [TypeNode.literals?, TypeNode.parts]
      · cases hvalue : value.toLiteral? with
        | some literal =>
            rcases value.says_or_refused ⟨"", []⟩ span
              with ⟨other, hother, hsays⟩ | ⟨hnone, -⟩
            · obtain rfl := Option.some.inj (hvalue.symm.trans hother)
              exact .inl ⟨[literal], rfl, .cons (.literal span hsays) .nil⟩
            · cases hvalue.symm.trans hnone
        | none =>
            refine .inr ⟨rfl, _, List.mem_singleton_self _, ?_⟩
            rintro literal ⟨_, hsays⟩
            cases hvalue.symm.trans hsays.toLiteral?
      all_goals simp
  | parenthesized span inner =>
      rw [TypeNode.literals?, TypeNode.parts]
      exact TypeNode.spells inner
  | union span branches =>
      rw [TypeNode.literals?, TypeNode.parts]
      exact branches_spell branches
  | _ =>
      right
      rw [TypeNode.literals?, TypeNode.parts]
      · refine ⟨rfl, _, List.mem_singleton_self _, ?_⟩
        rintro literal ⟨⟩
      all_goals simp

theorem branches_spell (branches : List TypeNode) :
    (∃ literals, branchLiterals? branches = some literals ∧
      List.Forall₂ TypeNode.Spells (branchParts branches) literals) ∨
    branchLiterals? branches = none ∧
      ∃ part ∈ branchParts branches, ∀ literal, ¬part.Spells literal := by
  match branches with
  | [] => exact .inl ⟨[], rfl, .nil⟩
  | branch :: branches =>
      rw [branchLiterals?, branchParts]
      rcases TypeNode.spells branch
        with ⟨first, hfirst, hparts⟩ | ⟨hnone, part, hpart, hno⟩
      · rw [hfirst]
        rcases branches_spell branches
          with ⟨more, hmore, hlater⟩ | ⟨hnone, part, hpart, hno⟩
        · rw [hmore]
          exact .inl ⟨first ++ more, rfl, List.rel_append hparts hlater⟩
        · rw [hnone]
          exact .inr ⟨rfl, part, List.mem_append_right _ hpart, hno⟩
      · rw [hnone]
        exact .inr ⟨rfl, part, List.mem_append_left _ hpart, hno⟩

end

private theorem Item.gives (source : String) (item : Item) :
    item.Gives source (item.declaration? source).value
      (item.declaration? source).events := by
  cases item with
  | interface item =>
      have hmembers := membersGive (item.scope source) item.members
      have hevents :
          (item.declaration source).events = (if item.parents = [] then []
          else
            [.parentsNotFlattened source item.span.start.line
              item.name.text]) ++
            (memberFields (item.scope source) item.members).events := by
        rw [InterfaceItem.declaration]
        cases item.parents <;> simp
      have hvalue : (item.declaration source).value =
          ⟨item.name.text, .interface, item.exported,
          (memberFields (item.scope source) item.members).value⟩ := by
        rw [InterfaceItem.declaration]
        cases item.parents <;> simp
      rw [declaration?, Logged.value_bind, Logged.value_pure,
        Logged.events_bind, Logged.events_pure, List.append_nil,
        hevents, hvalue]
      exact .interface item hmembers
  | typeAlias item =>
      rw [declaration?, AliasItem.declaration?]
      split
      · next span members htype =>
          have hmembers := membersGive (item.scope source) members
          rw [Logged.value_bind, Logged.value_pure, Logged.events_bind,
            Logged.events_pure, List.append_nil]
          exact .object item (TypeNode.wraps_iff.mpr htype) hmembers
      · next hobject =>
          rcases item.type.spells
            with ⟨literals, hliterals, hparts⟩ | ⟨hnone, hpart⟩
          · rw [hliterals]
            exact .literals item hparts
          · rw [hnone]
            refine .skipped item (fun span members hwraps => ?_) hpart
            exact hobject span members (TypeNode.wraps_iff.mp hwraps)
  | other span => exact .other span

private theorem mergeGives (source : String) (schema : Schema)
    (declaration : Declaration) :
    MergeGives source schema declaration
      (schema.mergeFrom source declaration).value
      (schema.mergeFrom source declaration).events := by
  cases hfind : schema.find? declaration.name with
  | none =>
      rw [Schema.mergeFrom, Schema.merge_of_fresh hfind]
      exact .inserted hfind rfl
  | some first =>
      rw [Schema.mergeFrom, Schema.merge_of_found hfind]
      by_cases hobjects : first.kind.isObject && declaration.kind.isObject
      · rw [if_pos hobjects]
        exact .extended hfind (by simpa using hobjects) rfl
      · rw [if_neg hobjects]
        exact .refused hfind (by simpa using hobjects)

private theorem itemsGive (source : String) (exportAll : Bool) (schema : Schema)
    (items : List Item) :
    ItemsGive source exportAll schema items
      (mergeItems source exportAll schema items).value
      (mergeItems source exportAll schema items).events := by
  induction items generalizing schema with
  | nil => exact .nil
  | cons item items ih =>
      have hitem := item.gives source
      rw [mergeItems, Logged.value_bind, Logged.events_bind]
      cases hdeclared : (item.declaration? source).value with
      | none =>
          rw [hdeclared] at hitem
          exact .without hitem (ih schema)
      | some declaration =>
          rw [hdeclared] at hitem
          exact .declared hitem (mergeGives source schema _) (ih _)

end Script

open Script

/-- A list of a union with a type parameter, a method, a field without a type, a
field that is left out, a declaration that is refused and an alias that is
skipped. -/
def mixed : Text.Source where
  id := "mixed.ts"
  text :=
    "interface A<T> \x7b a: (string | T)[]; b(): 1; c; d: 1n \x7d\ntype A = 'x'\ntype B = string"

end ShapeMend
