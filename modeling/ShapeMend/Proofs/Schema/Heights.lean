import ShapeMend.Proofs.Schema.Loading
import ShapeMend.Proofs.Workspace.WellFormed

/-!
# How deep the schemas of sources are nested

A field that lies in an object written out in place lies four levels deeper in
the descriptor: in a list of fields, a field, its alternatives and an
alternative.  Sources may nest objects deeper than descriptors are read, so a
descriptor that was written is not always loaded.
-/

namespace ShapeMend

open Json Script

/-! ## Heights -/

mutual

def Shape.height : Shape → Nat
  | .inline fields => fieldsHeight fields
  | _ => 0

def fieldsHeight : List (FieldOf Shape) → Nat
  | [] => 0
  | ⟨_, _, alternatives⟩ :: fields =>
      max (alternativesHeight alternatives + 1) (fieldsHeight fields)

def alternativesHeight : List (AlternativeOf Shape) → Nat
  | [] => 0
  | ⟨shape, _⟩ :: alternatives =>
      max shape.height (alternativesHeight alternatives)

end

private theorem Literal.nesting_toJson (literal : Literal) :
    literal.toJson.nesting = 0 := by
  cases literal with
  | number value =>
      rw [toJson, numberToJson]
      repeat' split
      all_goals simp [nesting]
  | _ => simp [toJson, nesting]

mutual

theorem Shape.nesting_bounds {shape : Shape} (h : Populated shape.fieldLists) :
    4 * shape.height ≤ shape.toJson.nesting ∧
      shape.toJson.nesting ≤ 4 * shape.height + 1 := by
  cases shape with
  | primitive primitive => simp [Shape.toJson, nesting, Shape.height]
  | literal literal => simp [Shape.toJson, Literal.nesting_toJson, Shape.height]
  | reference name => simp [Shape.toJson, nesting, Shape.height]
  | inline fields =>
      rw [Shape.fieldLists, Populated.cons_iff] at h
      have hfields := fields_nesting_bounds h.1 h.2
      rw [Shape.toJson, nesting, Shape.height]
      omega

private theorem fields_nesting_bounds {fields : List (FieldOf Shape)}
    (h : ∀ field ∈ fields, field.alternatives ≠ [])
    (hnested : Populated (nestedLists fields)) :
    4 * fieldsHeight fields ≤ itemsNesting (fieldsToJson fields) + 1 ∧
      itemsNesting (fieldsToJson fields) ≤ 4 * fieldsHeight fields := by
  match fields with
  | [] => simp [fieldsToJson, itemsNesting, fieldsHeight]
  | ⟨key, optional, alternatives⟩ :: fields =>
      obtain ⟨hfirst, hlater⟩ := List.forall_mem_cons.mp h
      obtain ⟨hinside, hmore⟩ := List.forall_mem_append.mp hnested
      have hpresent : alternatives ≠ [] := hfirst
      have halternatives := alternatives_nesting_bounds hpresent hinside
      have hfields := fields_nesting_bounds hlater hmore
      simp only [fieldsToJson, itemsNesting, nesting, membersNesting,
        fieldsHeight]
      omega

theorem alternatives_nesting_bounds {alternatives : List (AlternativeOf Shape)}
    (hne : alternatives ≠ []) (h : Populated (alternativeLists alternatives)) :
    4 * alternativesHeight alternatives + 1 ≤
      itemsNesting (alternativesToJson alternatives) ∧
      itemsNesting (alternativesToJson alternatives) ≤ 4 *
        alternativesHeight alternatives + 2 := by
  match alternatives with
  | ⟨shape, isArray⟩ :: alternatives =>
      obtain ⟨hinside, hmore⟩ := List.forall_mem_append.mp h
      have hshape := Shape.nesting_bounds hinside
      simp only [alternativesToJson, itemsNesting, nesting, membersNesting,
        alternativesHeight]
      match alternatives with
      | [] =>
          simp only [alternativesToJson, itemsNesting, alternativesHeight]
          omega
      | next :: alternatives =>
          have hlater :=
            alternatives_nesting_bounds
              (List.cons_ne_nil next alternatives) hmore
          omega

end

namespace Schema

/-- A well-formed schema is nested no deeper than descriptors are read if no
more than thirty-one of its fields lie within one another. -/
theorem nesting_toJson_le_iff {schema : Schema}
    (h : ∀ declaration ∈ schema.declarations, declaration.WellFormed) :
    schema.toJson.nesting ≤ nestingLimit ↔
      ∀ declaration ∈ schema.declarations,
        fieldsHeight declaration.fields ≤ 31 := by
  rw [Schema.toJson, show nestingLimit = 126 + 1 from rfl,
    nesting_object_le_iff, List.forall_mem_map]
  refine forall₂_congr fun declaration hdeclaration => ?_
  obtain ⟨hfields, hnested⟩ :=
    Populated.cons_iff.mp (h declaration hdeclaration).populated
  have hbounds := fields_nesting_bounds hfields hnested
  simp only [Declaration.toJson, nesting, membersNesting]
  omega

end Schema

/-! ## Literals of scripts -/

theorem alternativesFinite_iff {alternatives : List (AlternativeOf Shape)} :
    alternativesFinite alternatives ↔ ∀ alternative ∈ alternatives,
      alternative.shape.isFinite := by
  induction alternatives with
  | nil => simp [alternativesFinite]
  | cons alternative alternatives ih =>
      obtain ⟨shape, isArray⟩ := alternative
      rw [alternativesFinite, Bool.and_eq_true, List.forall_mem_cons, ih]

theorem fieldsFinite_iff {fields : List (FieldOf Shape)} :
    fieldsFinite fields ↔ ∀ field ∈ fields,
      alternativesFinite field.alternatives := by
  induction fields with
  | nil => simp [fieldsFinite]
  | cons field fields ih =>
      obtain ⟨key, optional, alternatives⟩ := field
      rw [fieldsFinite, Bool.and_eq_true, List.forall_mem_cons, ih]

namespace Script

mutual

theorem TypeNode.isFinite_alternatives (scope : Scope) (node : TypeNode) :
    ∀ alternative ∈ (node.alternatives scope).value,
      alternative.shape.isFinite := by
  cases node with
  | keyword span word =>
      rw [TypeNode.alternatives]
      split
      · simp [Shape.isFinite, Alternative.one]
      · simp
  | literal span value =>
      rw [TypeNode.alternatives]
      split
      · next literal hliteral =>
          exact List.forall_mem_singleton.mpr
            (LiteralValue.isFinite_of_toLiteral? hliteral)
      · simp
  | reference span name qualified arguments =>
      rw [TypeNode.alternatives]
      split
      · simp
      split
      · simp
      · simp [Shape.isFinite, Alternative.one]
  | array span element =>
      have helement := TypeNode.isFinite_alternatives scope element
      rw [TypeNode.alternatives]
      exact List.forall_mem_map.mpr helement
  | union span branches =>
      rw [TypeNode.alternatives]
      exact isFinite_branchAlternatives scope branches
  | parenthesized span inner =>
      rw [TypeNode.alternatives]
      exact TypeNode.isFinite_alternatives scope inner
  | object span members =>
      rw [TypeNode.alternatives]
      exact List.forall_mem_singleton.mpr (finite_memberFields scope members)
  | _ => simp [TypeNode.alternatives]

theorem isFinite_branchAlternatives (scope : Scope) (branches : List TypeNode) :
    ∀ alternative ∈ (branchAlternatives scope branches).value,
      alternative.shape.isFinite := by
  match branches with
  | [] => simp [branchAlternatives]
  | branch :: branches =>
      rw [branchAlternatives]
      exact List.forall_mem_append.mpr
        ⟨TypeNode.isFinite_alternatives scope branch,
        isFinite_branchAlternatives scope branches⟩

theorem finite_memberFields (scope : Scope) (members : List Member) :
    fieldsFinite (memberFields scope members).value := by
  match members with
  | [] => simp [memberFields, fieldsFinite]
  | .other span form :: members =>
      rw [memberFields]
      exact finite_memberFields scope members
  | .property span key optional declared :: members =>
      have hmembers := finite_memberFields scope members
      rw [memberFields, Logged.value_bind]
      split
      · exact hmembers
      · rw [Logged.value_bind]
        refine fieldsFinite_iff.mpr
          (List.forall_mem_cons.mpr ⟨?_, fieldsFinite_iff.mp hmembers⟩)
        exact alternativesFinite_iff.mpr
          (isFinite_declaredAlternatives scope declared)

theorem isFinite_declaredAlternatives (scope : Scope)
    (declared : Option TypeNode) :
    ∀ alternative ∈ (declaredAlternatives scope declared).value,
      alternative.shape.isFinite := by
  match declared with
  | none => simp [declaredAlternatives, Shape.isFinite, Alternative.one]
  | some node =>
      rw [declaredAlternatives]
      exact TypeNode.isFinite_alternatives scope node

end

private theorem AliasItem.finite_of_declaration? {source : String}
    {item : AliasItem} {declaration : Declaration}
    (h : (item.declaration? source).value = some declaration) :
    fieldsFinite declaration.fields := by
  unfold declaration? at h
  split at h
  · next span members _ =>
      obtain rfl := Option.some.inj h
      exact finite_memberFields (item.scope source) members
  · split at h
    · next literals hliterals =>
        obtain rfl := Option.some.inj h
        have hfinite := item.type.isFinite_of_literals? hliterals
        simpa [fieldsFinite, alternativesFinite_iff, Shape.isFinite,
          Alternative.one] using hfinite
    · cases h

private theorem Item.finite_of_declaration? {source : String} {item : Item}
    {declaration : Declaration}
    (h : (item.declaration? source).value = some declaration) :
    fieldsFinite declaration.fields := by
  cases item with
  | interface item =>
      obtain rfl := Option.some.inj h
      unfold InterfaceItem.declaration
      split
      · exact finite_memberFields (item.scope source) item.members
      · exact finite_memberFields (item.scope source) item.members
  | typeAlias item => exact AliasItem.finite_of_declaration? h
  | other span => cases h

end Script

theorem isFinite_of_source {source : Text.Source} {exportAll : Bool}
    {parsed : Logged Schema}
    (h : schemaOfSource source exportAll = .ok parsed) :
    parsed.value.isFinite := by
  have hextend {first second : Declaration} (_ : first.kind.isObject)
      (hfirst : fieldsFinite first.fields)
      (hsecond : fieldsFinite second.fields) :
        fieldsFinite (first.extend second).fields := by
    rw [fieldsFinite_iff] at hfirst hsecond ⊢
    exact List.forall_mem_append.mpr ⟨hfirst, hsecond⟩
  refine List.all_eq_true.mpr
    (forall_of_source hextend (fun _ _ _ _ declaration _ hdeclared => ?_) h)
  exact @Script.Item.finite_of_declaration? _ _ declaration hdeclared

/-! ## Loading what was written -/

namespace Schema

/-- The descriptor of the declarations of a source is loaded again unless more
than thirty-one fields lie within one another, that is, unless a field lies in
more than thirty objects that are written out one in the other. -/
theorem exists_loaded_iff_of_source {source : Text.Source} {exportAll : Bool}
    {parsed : Logged Schema}
    (h : schemaOfSource source exportAll = .ok parsed) :
    (∃ loaded,
      ofDescriptor (ofDeclarations parsed.value.declarations).toJson.pretty =
      .ok loaded) ↔
      ∀ declaration ∈ parsed.value.declarations,
        fieldsHeight declaration.fields ≤ 31 := by
  rw [ofDeclarations_declarations,
    exists_ofDescriptor_pretty_iff (isFinite_of_source h)]
  exact nesting_toJson_le_iff (forall_wellFormed_of_source h)

/-- A field that lies in the given number of objects. -/
def nestedSource (objects : Nat) : Text.Source :=
  ⟨"nested.ts", "interface A\x7b" ++
    String.join (List.replicate objects "a:\x7b") ++ "a" ++
    String.join (List.replicate objects "\x7d") ++ "\x7d"⟩

theorem exists_loaded_nestedSource :
    ∃ parsed, schemaOfSource (nestedSource 3) false = .ok parsed ∧
    ∃ loaded,
      ofDescriptor (ofDeclarations parsed.value.declarations).toJson.pretty =
      .ok loaded := by
  have hheights :
      ((schemaOfSource (nestedSource 3) false).toOption.any fun parsed =>
      parsed.value.declarations.all fun declaration =>
        fieldsHeight declaration.fields ≤ 31) := by
    decide +kernel
  cases h : schemaOfSource (nestedSource 3) false with
  | error error => simp [h, Except.toOption] at hheights
  | ok parsed =>
      refine ⟨parsed, rfl, (exists_loaded_iff_of_source h).mpr ?_⟩
      simpa [h, Except.toOption] using hheights

theorem not_exists_loaded_nestedSource : ∃ parsed,
    schemaOfSource (nestedSource 31) false = .ok parsed ∧
      ∃ error,
        ofDescriptor (ofDeclarations parsed.value.declarations).toJson.pretty =
        .error error := by
  have hheights :
      ((schemaOfSource (nestedSource 31) false).toOption.any fun parsed =>
      parsed.value.declarations.any fun declaration =>
        31 < fieldsHeight declaration.fields) := by
    decide +kernel
  cases h : schemaOfSource (nestedSource 31) false with
  | error error => simp [h, Except.toOption] at hheights
  | ok parsed =>
      refine ⟨parsed, rfl, ?_⟩
      cases hloaded :
        ofDescriptor
        (ofDeclarations parsed.value.declarations).toJson.pretty with
      | error error => exact ⟨error, rfl⟩
      | ok loaded =>
          rw [ofDeclarations_declarations] at hloaded
          have hnesting :=
            (exists_ofDescriptor_pretty_iff (isFinite_of_source h)).mp
              ⟨loaded, hloaded⟩
          rw [nesting_toJson_le_iff (forall_wellFormed_of_source h)] at hnesting
          simp only [h, Except.toOption, Option.any_some, List.any_eq_true,
            decide_eq_true_eq] at hheights
          obtain ⟨declaration, hmem, hhigh⟩ := hheights
          exact absurd (hnesting declaration hmem) (Nat.not_le.mpr hhigh)

end Schema

end ShapeMend
