import ShapeMend.Proofs.Schema.Literals
import ShapeMend.Proofs.Schema.Merge
import ShapeMend.Proofs.Script.Unions

/-!
# Well-formed schemas

Every field of a well-formed schema has an alternative, and a literal union
holds nothing but its literals, in one field of its own name.  The declarations
of a script are well-formed, and merging keeps them so.
-/

namespace ShapeMend

open ShapeMend.Script

/-! ## Well-formed declarations -/

def Populated (lists : List (List Field)) : Prop :=
  ∀ fields ∈ lists, ∀ field ∈ fields, field.alternatives ≠ []

structure Declaration.WellFormed (declaration : Declaration) : Prop where
  populated : Populated declaration.fieldLists
  literals : declaration.kind = .literalUnion → ∃ alternatives,
    declaration.fields = [⟨declaration.name, false, alternatives⟩] ∧
      ∀ alternative ∈ alternatives, ∃ literal : Literal,
        alternative = Alternative.one (.literal literal) ∧ literal.isFinite

/-- Names and declarations correspond, and the declarations are well-formed. -/
structure Schema.WellFormed (schema : Schema) : Prop where
  find_iff : ∀ name declaration, schema.find? name = some declaration ↔
    declaration ∈ schema.declarations ∧ declaration.name = name
  declarations : ∀ declaration ∈ schema.declarations, declaration.WellFormed

namespace Populated

variable {first second : List (List Field)} {fields : List Field}

private theorem append (hfirst : Populated first) (hsecond : Populated second) :
    Populated (first ++ second) := by
  intro inside hinside
  rcases List.mem_append.mp hinside with hinside | hinside
  · exact hfirst inside hinside
  · exact hsecond inside hinside

theorem cons_iff : Populated (fields :: first) ↔
    (∀ field ∈ fields, field.alternatives ≠ []) ∧ Populated first :=
  List.forall_mem_cons

end Populated

private theorem nestedLists_append (first second : List Field) :
    nestedLists (first ++ second) = nestedLists first ++
      nestedLists second := by
  induction first with
  | nil => rfl
  | cons field first ih =>
      obtain ⟨key, optional, alternatives⟩ := field
      rw [List.cons_append, nestedLists, nestedLists, ih, List.append_assoc]

/-! ## Merging -/

namespace Declaration.WellFormed

variable {first second : Declaration}

theorem extend (hobject : first.kind.isObject) (hfirst : first.WellFormed)
    (hsecond : second.WellFormed) : (first.extend second).WellFormed where
  populated := by
    obtain ⟨hfields, hnested⟩ := Populated.cons_iff.mp hfirst.populated
    obtain ⟨hmore, hinside⟩ := Populated.cons_iff.mp hsecond.populated
    refine Populated.cons_iff.mpr ⟨?_, ?_⟩
    · intro field hfield
      rcases List.mem_append.mp hfield with hfield | hfield
      · exact hfields field hfield
      · exact hmore field hfield
    · exact nestedLists_append first.fields second.fields ▸
        hnested.append hinside
  literals hkind := by
    have hunion : first.kind = .literalUnion := hkind
    simp [hunion, DeclarationKind.isObject] at hobject

end Declaration.WellFormed

namespace Schema

variable {schema : Schema} {declaration : Declaration}
  {holds : Declaration → Prop}

theorem forall_merge
    (hextend : ∀ {first second : Declaration},
      first.kind.isObject → holds first → holds second →
      holds (first.extend second))
    (h : ∀ old ∈ schema.declarations, holds old)
    (hdeclaration : holds declaration) :
    ∀ merged ∈ (schema.merge declaration).2.declarations, holds merged := by
  unfold merge
  split
  · exact List.forall_mem_append.mpr
      ⟨h, List.forall_mem_singleton.mpr hdeclaration⟩
  next first hfind =>
  split
  · next hkinds =>
      rw [Bool.and_eq_true] at hkinds
      intro merged hmerged
      obtain ⟨old, hold, rfl⟩ := List.mem_map.mp hmerged
      split
      · next hname =>
          obtain rfl := eq_of_find?_eq_some hfind hold hname
          exact hextend hkinds.1 (h old hold) hdeclaration
      · exact h old hold
  · exact h

theorem forall_foldl_merge
    (hextend : ∀ {first second : Declaration},
      first.kind.isObject → holds first → holds second →
      holds (first.extend second))
    {declarations : List Declaration}
    (h : ∀ old ∈ schema.declarations, holds old)
    (hdeclarations : ∀ declaration ∈ declarations, holds declaration) :
    ∀ merged ∈
      (declarations.foldl
        (fun schema declaration => (schema.merge declaration).2)
      schema).declarations, holds merged := by
  induction declarations generalizing schema with
  | nil => exact h
  | cons declaration declarations ih =>
      obtain ⟨hdeclaration, hlater⟩ := List.forall_mem_cons.mp hdeclarations
      exact ih (forall_merge hextend h hdeclaration) hlater

/-- No name is declared twice, so a declaration is found by its name and by no
other. -/
private theorem wellFormed_of_forall
    (h : ∀ declaration ∈ schema.declarations, declaration.WellFormed) :
    schema.WellFormed where
  find_iff name declaration := by
    refine ⟨mem_of_find?_eq_some, fun ⟨hmem, hname⟩ => ?_⟩
    cases hfind : schema.find? name with
    | none =>
        exact absurd (hname ▸ List.mem_map_of_mem hmem)
          (not_mem_names_of_find?_eq_none hfind)
    | some found => rw [eq_of_find?_eq_some hfind hmem hname]
  declarations := h

theorem wellFormed_ofDeclarations {declarations : List Declaration}
    (h : ∀ declaration ∈ declarations, declaration.WellFormed) :
    (ofDeclarations declarations).WellFormed :=
  wellFormed_of_forall
    (forall_foldl_merge Declaration.WellFormed.extend (List.forall_mem_nil _) h)

end Schema

/-! ## Declarations of scripts -/

namespace Script

mutual

theorem TypeNode.populated_alternatives (scope : Scope) (node : TypeNode) :
    ∀ alternative ∈ (node.alternatives scope).value,
      Populated alternative.shape.fieldLists := by
  cases node with
  | keyword span word =>
      rw [TypeNode.alternatives]
      split
      · simp [Populated, Shape.fieldLists, Alternative.one]
      · simp
  | literal span value =>
      rw [TypeNode.alternatives]
      split
      · simp [Populated, Shape.fieldLists, Alternative.one]
      · simp
  | reference span name qualified arguments =>
      rw [TypeNode.alternatives]
      split
      · simp
      split
      · simp
      · simp [Populated, Shape.fieldLists, Alternative.one]
  | array span element =>
      have helement := TypeNode.populated_alternatives scope element
      rw [TypeNode.alternatives]
      intro alternative halternative
      obtain ⟨single, hsingle, rfl⟩ := List.mem_map.mp halternative
      exact helement single hsingle
  | union span branches =>
      rw [TypeNode.alternatives]
      exact populated_branchAlternatives scope branches
  | parenthesized span inner =>
      rw [TypeNode.alternatives]
      exact TypeNode.populated_alternatives scope inner
  | object span members =>
      have hfields := populated_memberFields scope members
      rw [TypeNode.alternatives]
      intro alternative halternative
      obtain rfl := List.mem_singleton.mp halternative
      simpa [Alternative.one, Shape.fieldLists] using hfields
  | _ => simp [TypeNode.alternatives]

theorem populated_branchAlternatives (scope : Scope)
    (branches : List TypeNode) :
    ∀ alternative ∈ (branchAlternatives scope branches).value,
      Populated alternative.shape.fieldLists := by
  match branches with
  | [] => simp [branchAlternatives]
  | branch :: branches =>
      rw [branchAlternatives]
      exact List.forall_mem_append.mpr
        ⟨TypeNode.populated_alternatives scope branch,
        populated_branchAlternatives scope branches⟩

theorem populated_memberFields (scope : Scope) (members : List Member) :
    Populated ((memberFields scope members).value ::
      nestedLists (memberFields scope members).value) := by
  match members with
  | [] => simp [memberFields, Populated, nestedLists]
  | .other span form :: members =>
      rw [memberFields]
      exact populated_memberFields scope members
  | .property span key optional declared :: members =>
      have hdeclared := populated_declaredAlternatives scope declared
      have hmembers := populated_memberFields scope members
      rw [memberFields, Logged.value_bind]
      split
      · exact hmembers
      · next hsome =>
          rw [Populated.cons_iff] at hmembers ⊢
          refine ⟨List.forall_mem_cons.mpr
            ⟨by simpa using hsome, hmembers.1⟩, ?_⟩
          intro inside hinside
          obtain ⟨field, hfield, alternative, halternative, hlist⟩ :=
            mem_nestedLists.mp hinside
          rcases List.mem_cons.mp hfield with rfl | hlater
          · exact hdeclared alternative halternative inside hlist
          · exact hmembers.2 inside (mem_nestedLists.mpr
              ⟨field, hlater, alternative, halternative, hlist⟩)

theorem populated_declaredAlternatives (scope : Scope)
    (declared : Option TypeNode) :
    ∀ alternative ∈ (declaredAlternatives scope declared).value,
      Populated alternative.shape.fieldLists := by
  match declared with
  | none =>
      simp [declaredAlternatives, Populated, Shape.fieldLists, Alternative.one]
  | some node =>
      rw [declaredAlternatives]
      exact TypeNode.populated_alternatives scope node

end

theorem LiteralValue.isFinite_of_toLiteral? {value : LiteralValue}
    {literal : Literal} (h : value.toLiteral? = some literal) :
    literal.isFinite := by
  unfold toLiteral? at h
  split at h
  · obtain rfl := Option.some.inj h
    rfl
  · split at h
    · next hfinite =>
        obtain rfl := Option.some.inj h
        exact hfinite
    · cases h
  · obtain rfl := Option.some.inj h
    rfl
  · cases h

mutual

theorem TypeNode.isFinite_of_literals? (node : TypeNode)
    {literals : List Literal} (h : node.literals? = some literals) :
    ∀ literal ∈ literals, literal.isFinite := by
  cases node with
  | literal span value =>
      rw [TypeNode.literals?] at h
      obtain ⟨literal, hliteral, rfl⟩ := Option.map_eq_some_iff.mp h
      exact List.forall_mem_singleton.mpr
        (LiteralValue.isFinite_of_toLiteral? hliteral)
  | parenthesized span inner =>
      rw [TypeNode.literals?] at h
      exact TypeNode.isFinite_of_literals? inner h
  | union span branches =>
      rw [TypeNode.literals?] at h
      exact isFinite_of_branchLiterals? branches h
  | _ => simp [TypeNode.literals?] at h

theorem isFinite_of_branchLiterals? (branches : List TypeNode)
    {literals : List Literal} (h : branchLiterals? branches = some literals) :
    ∀ literal ∈ literals, literal.isFinite := by
  match branches with
  | [] =>
      obtain rfl := Option.some.inj h
      exact List.forall_mem_nil _
  | branch :: branches =>
      rw [branchLiterals?] at h
      obtain ⟨first, hfirst, h⟩ := Option.bind_eq_some_iff.mp h
      obtain ⟨more, hmore, h⟩ := Option.bind_eq_some_iff.mp h
      obtain rfl := Option.some.inj h
      exact List.forall_mem_append.mpr
        ⟨TypeNode.isFinite_of_literals? branch hfirst,
        isFinite_of_branchLiterals? branches hmore⟩

end

private theorem InterfaceItem.wellFormed_declaration (source : String)
    (item : InterfaceItem) : (item.declaration source).value.WellFormed := by
  have hfields := populated_memberFields (item.scope source) item.members
  unfold InterfaceItem.declaration
  split
  · exact ⟨hfields, by simp⟩
  · exact ⟨hfields, by simp⟩

private theorem AliasItem.wellFormed_of_declaration? {source : String}
    {item : AliasItem} (hpopulated : item.type.Populated)
    {declaration : Declaration}
    (h : (item.declaration? source).value = some declaration) :
    declaration.WellFormed := by
  unfold declaration? at h
  split at h
  · next span members _ =>
      have hfields := populated_memberFields (item.scope source) members
      obtain rfl := Option.some.inj h
      exact ⟨hfields, by simp⟩
  · split at h
    · next literals hliterals =>
        obtain rfl := Option.some.inj h
        have hfinite := item.type.isFinite_of_literals? hliterals
        refine ⟨?_, fun _ => ⟨_, rfl, ?_⟩⟩
        · refine Populated.cons_iff.mpr ⟨List.forall_mem_singleton.mpr ?_, ?_⟩
          · rintro hnone
            rw [List.map_eq_nil_iff] at hnone
            exact hpopulated (hnone ▸ hliterals)
          · intro inside hinside
            obtain ⟨field, hfield, alternative, halternative, hlist⟩ :=
              mem_nestedLists.mp hinside
            obtain rfl := List.mem_singleton.mp hfield
            obtain ⟨literal, _, rfl⟩ := List.mem_map.mp halternative
            cases hlist
        · intro alternative halternative
          obtain ⟨literal, hliteral, rfl⟩ := List.mem_map.mp halternative
          exact ⟨literal, rfl, hfinite literal hliteral⟩
    · cases h

private theorem Item.wellFormed_of_declaration? {source : String} {item : Item}
    (hpopulated : item.Populated) {declaration : Declaration}
    (h : (item.declaration? source).value = some declaration) :
    declaration.WellFormed := by
  cases item with
  | interface item =>
      obtain rfl := Option.some.inj h
      exact item.wellFormed_declaration source
  | typeAlias item => exact AliasItem.wellFormed_of_declaration? hpopulated h
  | other span => cases h

/-- What holds of the declarations of the items holds of all that they are
merged into. -/
private theorem forall_mergeItems {holds : Declaration → Prop}
    (hextend : ∀ {first second : Declaration},
      first.kind.isObject → holds first → holds second →
      holds (first.extend second))
    {source : String} {exportAll : Bool} {schema : Schema} {items : List Item}
    (hitems : ∀ item ∈ items, ∀ declaration exported,
      (item.declaration? source).value = some declaration →
      holds { declaration with exported })
    (h : ∀ declaration ∈ schema.declarations, holds declaration) :
    ∀ declaration ∈
      (mergeItems source exportAll schema items).value.declarations,
      holds declaration := by
  induction items generalizing schema with
  | nil => exact h
  | cons item items ih =>
      obtain ⟨hitem, hlater⟩ := List.forall_mem_cons.mp hitems
      rw [mergeItems, Logged.value_bind]
      cases hdeclared : (item.declaration? source).value with
      | none => exact ih hlater h
      | some declaration =>
          simp only [Logged.value_bind, Schema.value_mergeFrom]
          exact ih hlater (Schema.forall_merge hextend h (hitem _ _ hdeclared))

end Script

theorem forall_of_source {holds : Declaration → Prop}
    (hextend : ∀ {first second : Declaration},
      first.kind.isObject → holds first → holds second →
      holds (first.extend second))
    {source : Text.Source}
    (hitems : ∀ items, itemsOfText source.chars = .ok items → ∀ item ∈ items,
      ∀ declaration exported, (item.declaration? source.id).value =
      some declaration → holds { declaration with exported })
    {exportAll : Bool} {parsed : Logged Schema}
    (h : schemaOfSource source exportAll = .ok parsed) :
    ∀ declaration ∈ parsed.value.declarations, holds declaration := by
  unfold schemaOfSource at h
  split at h
  · cases h
  · next items hread =>
      obtain rfl := Except.ok.inj h
      exact forall_mergeItems hextend (hitems items hread)
        (List.forall_mem_nil _)

theorem forall_wellFormed_of_source {source : Text.Source} {exportAll : Bool}
    {parsed : Logged Schema}
    (h : schemaOfSource source exportAll = .ok parsed) :
    ∀ declaration ∈ parsed.value.declarations, declaration.WellFormed := by
  refine forall_of_source Declaration.WellFormed.extend
    (fun items hread item hitem declaration exported hdeclared => ?_) h
  have hdeclaration :=
    Item.wellFormed_of_declaration? (populated_of_itemsOfText hread item hitem)
      hdeclared
  exact ⟨hdeclaration.populated, hdeclaration.literals⟩

end ShapeMend
