import Mathlib.Data.List.Forall2
import ShapeMend.Proofs.Keyed
import ShapeMend.Proofs.Schema.Literals
import ShapeMend.Proofs.Schema.Merge
import ShapeMend.Schema.Descriptor.Read

/-!
# Schemas from descriptor trees

The descriptor of a schema, handed over as a tree whose numbers keep their
values, is read back as the schema. A value that is handed over as a list may be
read as fields whatever the word beside it says, and that word then fits: only
fields are written as lists.
-/

namespace ShapeMend

open ShapeMend.Number

/-! ## Trees that are handed over -/

/-- The same tree, but for how its numbers are kept: each has the value it had.
-/
inductive Json.Keeps : Json → Json → Prop
  | null : Keeps .null .null
  | bool (value : Bool) : Keeps (.bool value) (.bool value)
  | number {first second : JsonNumber}
      (h : first.toBinary64.sameValue second.toBinary64) :
      Keeps (.number first) (.number second)
  | string (value : String) : Keeps (.string value) (.string value)
  | array {items others : List Json} (h : List.Forall₂ Keeps items others) :
      Keeps (.array items) (.array others)
  | object {members others : List (String × Json)}
      (hkeys : Keyed.keys members = Keyed.keys others)
      (hvalues : List.Forall₂ Keeps (members.map (·.2)) (others.map (·.2))) :
      Keeps (.object members) (.object others)

namespace Json

mutual

theorem Keeps.refl (json : Json) : Keeps json json := by
  cases json with
  | null => exact .null
  | bool value => exact .bool value
  | number value => exact .number (Binary64.sameValue_refl _)
  | string value => exact .string value
  | array items => exact .array (keeps_items items)
  | object members => exact .object rfl (keeps_values members)

theorem keeps_items (items : List Json) : List.Forall₂ Keeps items items := by
  cases items with
  | nil => exact .nil
  | cons item items => exact .cons (Keeps.refl item) (keeps_items items)

theorem keeps_values (members : List (String × Json)) :
    List.Forall₂ Keeps (members.map (·.2)) (members.map (·.2)) := by
  cases members with
  | nil => exact .nil
  | cons member members =>
      obtain ⟨key, value⟩ := member
      exact .cons (Keeps.refl value) (keeps_values members)

end

variable {json : Json}

private theorem keeps_string_iff {value : String} :
    Keeps (.string value) json ↔ json = .string value := by
  constructor
  · rintro ⟨⟩
    rfl
  · rintro rfl
    exact .string value

private theorem keeps_bool_iff {value : Bool} :
    Keeps (.bool value) json ↔ json = .bool value := by
  constructor
  · rintro ⟨⟩
    rfl
  · rintro rfl
    exact .bool value

private theorem keeps_array_iff {items : List Json} :
    Keeps (.array items) json ↔ ∃ others,
      json = .array others ∧ List.Forall₂ Keeps items others := by
  constructor
  · rintro ⟨⟩
    exact ⟨_, rfl, ‹_›⟩
  · rintro ⟨others, rfl, h⟩
    exact .array h

theorem keeps_nil_iff : Keeps (.object []) json ↔ json = .object [] := by
  constructor
  · intro h
    cases h with
    | @object _ others hkeys hvalues =>
        have hnil : others = [] := by simpa [Keyed.keys] using hkeys.symm
        rw [hnil]
  · rintro rfl
    exact .object rfl .nil

theorem keeps_cons_iff {key : String} {value : Json}
    {members : List (String × Json)} :
    Keeps (.object ((key, value) :: members)) json ↔ ∃ others,
      Keeps (.object members) (.object others) ∧ ∃ other, Keeps value other ∧
        json = .object ((key, other) :: others) := by
  constructor
  · intro h
    cases h with
    | @object _ all hkeys hvalues =>
        cases all with
        | nil => simp [Keyed.keys] at hkeys
        | cons entry others =>
            obtain ⟨name, other⟩ := entry
            rw [Keyed.keys_cons, Keyed.keys_cons, List.cons.injEq] at hkeys
            rw [List.map_cons, List.map_cons, List.forall₂_cons] at hvalues
            obtain ⟨rfl, hkeys⟩ := hkeys
            exact ⟨others, .object hkeys hvalues.2, other, hvalues.1, rfl⟩
  · rintro ⟨others, hrest, other, hvalue, rfl⟩
    cases hrest with
    | object hkeys hvalues =>
        exact .object (congrArg (key :: ·) hkeys) (.cons hvalue hvalues)

end Json

/-! ## Finite literals -/

mutual

def Shape.isFinite : Shape → Bool
  | .literal literal => literal.isFinite
  | .inline fields => fieldsFinite fields
  | _ => true

def fieldsFinite : List (FieldOf Shape) → Bool
  | [] => true
  | ⟨_, _, alternatives⟩ :: fields =>
      alternativesFinite alternatives && fieldsFinite fields

def alternativesFinite : List (AlternativeOf Shape) → Bool
  | [] => true
  | ⟨shape, _⟩ :: alternatives =>
      shape.isFinite && alternativesFinite alternatives

end

def Schema.isFinite (schema : Schema) : Bool :=
  schema.declarations.all fun declaration => fieldsFinite declaration.fields

/-! ## Whole descriptors as trees -/

namespace Descriptor

def kindOf? (word : String) : Option DeclarationKind :=
  kinds.find? (·.keyword = word)

namespace DeclarationParts

def withName? (parts : DeclarationParts) : Json → Option DeclarationParts
  | .string name =>
      if parts.name.isSome then none else some { parts with name := some name }
  | _ => none

def withKind? (parts : DeclarationParts) (value : Json) :
    Option DeclarationParts := do
  if parts.kind.isSome then none
  else return { parts with kind := some (← kindOf? (← variantOf? value)) }

def withExported? (parts : DeclarationParts) : Json → Option DeclarationParts
  | .bool value =>
      if parts.exported.isSome then none
        else some { parts with exported := some value }
  | _ => none

def withFields? (parts : DeclarationParts) (value : Json) :
    Option DeclarationParts := do
  if parts.fields.isSome then none
  else return { parts with fields := some (← fieldsOf? value) }

def complete? (parts : DeclarationParts) : Option Declaration := do
  return ⟨← parts.name, ← parts.kind, ← parts.exported, ← parts.fields⟩

end DeclarationParts

def declarationMembers? (parts : DeclarationParts) :
    List (String × Json) → Option DeclarationParts
  | [] => some parts
  | (name, value) :: members => do
    let parts ←
      if name = "name" then parts.withName? value
      else if name = "kind" then parts.withKind? value
      else if name = "exported" then parts.withExported? value
      else if name = "fields" then parts.withFields? value
      else some parts
    declarationMembers? parts members

def declarationOf? : Json → Option Declaration
  | .object members => do (← declarationMembers? {} members).complete?
  | .array [.string name, kind, .bool exported, fields] => do
    return ⟨name, ← kindOf? (← variantOf? kind), exported, ← fieldsOf? fields⟩
  | _ => none

def entriesOf? : List (String × Json) → Option (List (String × Declaration))
  | [] => some []
  | (key, value) :: members => do
    let declaration ← declarationOf? value
    return (key, declaration) :: (← entriesOf? members)

end Descriptor

/-- The schema that a value describes; every entry must stand under its own
name. -/
def Schema.ofJson? : Json → Option Schema
  | .object members => do
    let entries := Keyed.ofEntries (← Descriptor.entriesOf? members)
    if entries.any fun entry => entry.1 ≠ entry.2.name then none
    else return ofDeclarations (entries.map (·.2))
  | _ => none

theorem Declaration.name_eq_of_agrees {declaration other : Declaration}
    (h : declaration.agrees other) : declaration.name = other.name := by
  simp only [agrees, Bool.and_eq_true, decide_eq_true_eq] at h
  exact h.1.1.1

/-! ## Values in the written form -/

namespace Descriptor

def IsAlternative (json : Json) (alternative : Alternative) : Prop :=
  ∃ value type,
    json = .object [("value", value), ("isArray", .bool alternative.isArray),
      ("valueType", .string (ValueType.keyword type))] ∧
    Shape.ofValue type (fieldsOf? value) value = .ok alternative.shape

def IsField (json : Json) (field : Field) : Prop :=
  ∃ items, json =
    .object [("key", .string field.key), ("optional", .bool field.optional),
      ("attribute", .array items)] ∧
    List.Forall₂ IsAlternative items field.alternatives

def IsDeclaration (json : Json) (declaration : Declaration) : Prop :=
  ∃ items, json = .object [("name", .string declaration.name),
      ("kind", .string declaration.kind.keyword),
        ("exported", .bool declaration.exported),
      ("fields", .array items)] ∧
    List.Forall₂ IsField items declaration.fields

def IsSchema (json : Json) (schema : Schema) : Prop :=
  ∃ members, json = .object members ∧
    List.Forall₂ (fun member declaration =>
      member.1 = declaration.name ∧ IsDeclaration member.2 declaration)
      members schema.declarations

theorem ofKeyword?_keyword (type : ValueType) :
    ValueType.ofKeyword? type.keyword = some type := by
  cases type <;> decide

theorem kindOf?_keyword (kind : DeclarationKind) :
    kindOf? kind.keyword = some kind := by
  cases kind <;> decide

private theorem IsAlternative.alternativeOf? {json : Json}
    {alternative : Alternative} (h : IsAlternative json alternative) :
    alternativeOf? json = some alternative := by
  obtain ⟨value, type, rfl, hshape⟩ := h
  simp [ShapeMend.alternativeOf?, alternativeMembers?,
    AlternativeParts.withIsArray?, AlternativeParts.withValueType?, variantOf?,
    ofKeyword?_keyword, AlternativeParts.complete?, hshape, Except.toOption]

private theorem alternativesOf?_of_forall {items : List Json}
    {alternatives : List Alternative}
    (h : List.Forall₂ IsAlternative items alternatives) :
    alternativesOf? (.array items) = some alternatives := by
  rw [alternativesOf?]
  induction h with
  | nil => simp [alternativeItems?]
  | cons hfirst hrest ih => simp [alternativeItems?, hfirst.alternativeOf?, ih]

private theorem IsField.fieldOf? {json : Json} {field : Field}
    (h : IsField json field) : fieldOf? json = some field := by
  obtain ⟨items, rfl, halternatives⟩ := h
  simp [ShapeMend.fieldOf?, fieldMembers?, FieldParts.withKey?,
    FieldParts.withOptional?, alternativesOf?_of_forall halternatives,
    FieldParts.complete?]

theorem fieldsOf?_of_forall {items : List Json} {fields : List Field}
    (h : List.Forall₂ IsField items fields) :
    fieldsOf? (.array items) = some fields := by
  rw [fieldsOf?]
  induction h with
  | nil => simp [fieldItems?]
  | cons hfirst hrest ih => simp [fieldItems?, hfirst.fieldOf?, ih]

private theorem IsDeclaration.declarationOf? {json : Json}
    {declaration : Declaration} (h : IsDeclaration json declaration) :
    declarationOf? json = some declaration := by
  obtain ⟨items, rfl, hfields⟩ := h
  simp [Descriptor.declarationOf?, declarationMembers?,
    DeclarationParts.withName?, DeclarationParts.withKind?,
    DeclarationParts.withExported?, DeclarationParts.withFields?, variantOf?,
    kindOf?_keyword, fieldsOf?_of_forall hfields, DeclarationParts.complete?]

private theorem entriesOf?_of_forall {members : List (String × Json)}
    {declarations : List Declaration}
    (h : List.Forall₂ (fun member declaration => member.1 = declaration.name ∧
      IsDeclaration member.2 declaration) members declarations) :
    entriesOf? members =
      some (declarations.map
        fun declaration => (declaration.name, declaration)) := by
  induction h with
  | nil => rfl
  | @cons member declaration members declarations hfirst hrest ih =>
      obtain ⟨hname, hdeclaration⟩ := hfirst
      simp [entriesOf?, hdeclaration.declarationOf?, hname, ih]

end Descriptor

namespace Schema

/-- The declarations of a schema under their names are entries that stay as they
are. -/
theorem ofEntries_declarations (schema : Schema) :
    Keyed.ofEntries (schema.declarations.map
      fun declaration => (declaration.name, declaration)) =
      schema.declarations.map fun declaration =>
        (declaration.name, declaration) := by
  apply Keyed.ofEntries_of_nodup
  simpa [Keyed.keys, List.map_map, Function.comp_def] using schema.distinct

theorem ofJson?_of_isSchema {json : Json} {schema : Schema}
    (h : Descriptor.IsSchema json schema) : ofJson? json = some schema := by
  obtain ⟨members, rfl, hdeclarations⟩ := h
  simp [ofJson?, Descriptor.entriesOf?_of_forall hdeclarations,
    ofEntries_declarations, List.map_map, Function.comp_def,
    ofDeclarations_declarations]

end Schema

/-! ## Reading what was written -/

namespace Descriptor

open Json

private theorem exists_ofValue_literal {literal : Literal}
    (hfinite : literal.isFinite) {json : Json} (h : Keeps literal.toJson json) :
    ∃ decoded,
      Shape.ofValue .literal (fieldsOf? json) json = .ok (.literal decoded) ∧
        literal.agrees decoded := by
  cases literal with
  | string value =>
      rw [Literal.toJson] at h
      cases h
      exact ⟨.string value, rfl, by simp [Literal.agrees]⟩
  | boolean value =>
      rw [Literal.toJson] at h
      cases h
      exact ⟨.boolean value, rfl, by simp [Literal.agrees]⟩
  | notANumber => cases hfinite
  | number value =>
      obtain ⟨written, hwritten, hvalue⟩ := Literal.exists_numberToJson hfinite
      rw [Literal.toJson, hwritten] at h
      cases h with
      | @number _ second hsecond =>
          exact ⟨.number second.toBinary64, rfl,
            Binary64.sameValue_trans hvalue hsecond⟩

mutual

theorem exists_ofValue {shape : Shape} (hfinite : shape.isFinite) {json : Json}
    (h : Keeps shape.toJson json) : ∃ decoded,
      Shape.ofValue shape.valueType (fieldsOf? json) json = .ok decoded ∧
        shape.agrees decoded := by
  cases shape with
  | primitive primitive =>
      rw [Shape.toJson] at h
      cases h
      refine ⟨.primitive primitive, ?_, by simp [Shape.agrees]⟩
      cases primitive <;> rfl
  | literal literal =>
      rw [Shape.isFinite] at hfinite
      rw [Shape.toJson] at h
      obtain ⟨decoded, hdecoded, hagree⟩ := exists_ofValue_literal hfinite h
      exact ⟨.literal decoded, hdecoded, by rwa [Shape.agrees]⟩
  | reference name =>
      rw [Shape.toJson] at h
      cases h
      exact ⟨.reference name, rfl, by simp [Shape.agrees]⟩
  | inline fields =>
      rw [Shape.toJson] at h
      cases h with
      | @array _ items hitems =>
          rw [Shape.isFinite] at hfinite
          obtain ⟨decoded, hdecoded, hagree⟩ :=
            exists_forall_isField hfinite hitems
          refine ⟨.inline decoded, ?_, by rwa [Shape.agrees]⟩
          rw [fieldsOf?_of_forall hdecoded]
          rfl

private theorem exists_forall_isField {fields : List Field}
    (hfinite : fieldsFinite fields) {items : List Json}
    (h : List.Forall₂ Keeps (fieldsToJson fields) items) :
    ∃ decoded,
      List.Forall₂ IsField items decoded ∧ fieldsAgree fields decoded := by
  cases fields with
  | nil =>
      rw [fieldsToJson, List.forall₂_nil_left_iff] at h
      exact ⟨[], h ▸ .nil, by simp [fieldsAgree]⟩
  | cons field rest =>
      obtain ⟨key, optional, alternatives⟩ := field
      rw [fieldsToJson, List.forall₂_cons_left_iff] at h
      obtain ⟨item, later, hitem, hlater, rfl⟩ := h
      rw [fieldsFinite, Bool.and_eq_true] at hfinite
      simp only [keeps_cons_iff, keeps_nil_iff, keeps_string_iff,
        keeps_bool_iff, keeps_array_iff, object.injEq, exists_eq_left,
        ↓existsAndEq, true_and, and_true] at hitem
      obtain ⟨inner, hinner, rfl⟩ := hitem
      obtain ⟨first, hfirst, hsame⟩ :=
        exists_forall_isAlternative hfinite.1 hinner
      obtain ⟨decoded, hdecoded, hagree⟩ :=
        exists_forall_isField hfinite.2 hlater
      refine ⟨⟨key, optional, first⟩ :: decoded,
        .cons ⟨inner, rfl, hfirst⟩ hdecoded, ?_⟩
      simp [fieldsAgree, hsame, hagree]

theorem exists_forall_isAlternative {alternatives : List Alternative}
    (hfinite : alternativesFinite alternatives) {items : List Json}
    (h : List.Forall₂ Keeps (alternativesToJson alternatives) items) :
    ∃ decoded, List.Forall₂ IsAlternative items decoded ∧
      alternativesAgree alternatives decoded := by
  cases alternatives with
  | nil =>
      rw [alternativesToJson, List.forall₂_nil_left_iff] at h
      exact ⟨[], h ▸ .nil, by simp [alternativesAgree]⟩
  | cons alternative rest =>
      obtain ⟨shape, isArray⟩ := alternative
      rw [alternativesToJson, List.forall₂_cons_left_iff] at h
      obtain ⟨item, later, hitem, hlater, rfl⟩ := h
      rw [alternativesFinite, Bool.and_eq_true] at hfinite
      simp only [keeps_cons_iff, keeps_nil_iff, keeps_string_iff,
        keeps_bool_iff, object.injEq, exists_eq_left] at hitem
      obtain ⟨value, hvalue, rfl⟩ := hitem
      obtain ⟨first, hfirst, hsame⟩ := exists_ofValue hfinite.1 hvalue
      obtain ⟨decoded, hdecoded, hagree⟩ :=
        exists_forall_isAlternative hfinite.2 hlater
      refine ⟨⟨first, isArray⟩ :: decoded,
        .cons ⟨value, shape.valueType, rfl, hfirst⟩ hdecoded, ?_⟩
      simp [alternativesAgree, hsame, hagree]

end

private theorem exists_isDeclaration {declaration : Declaration}
    (hfinite : fieldsFinite declaration.fields) {json : Json}
    (h : Keeps declaration.toJson json) :
    ∃ decoded, IsDeclaration json decoded ∧ declaration.agrees decoded := by
  simp only [Declaration.toJson, keeps_cons_iff, keeps_nil_iff,
    keeps_string_iff, keeps_bool_iff, keeps_array_iff, object.injEq,
    exists_eq_left, ↓existsAndEq, true_and, and_true] at h
  obtain ⟨items, hitems, rfl⟩ := h
  obtain ⟨decoded, hdecoded, hagree⟩ := exists_forall_isField hfinite hitems
  refine ⟨{ declaration with fields := decoded }, ⟨items, rfl, hdecoded⟩, ?_⟩
  simp [Declaration.agrees, hagree]

private theorem exists_forall_isDeclaration {declarations : List Declaration}
    (hfinite : ∀ declaration ∈ declarations, fieldsFinite declaration.fields)
    {members : List (String × Json)}
    (h : Keeps (.object (declarations.map fun declaration =>
      (declaration.name, declaration.toJson))) (.object members)) :
    ∃ decoded, List.Forall₂ (fun member declaration =>
        member.1 = declaration.name ∧ IsDeclaration member.2 declaration)
          members decoded ∧
      List.Forall₂ (fun declaration other => declaration.agrees other)
        declarations decoded := by
  induction declarations generalizing members with
  | nil =>
      rw [List.map_nil, keeps_nil_iff, object.injEq] at h
      exact ⟨[], h ▸ .nil, .nil⟩
  | cons declaration rest ih =>
      rw [List.map_cons, keeps_cons_iff] at h
      obtain ⟨others, hrest, value, hvalue, hmembers⟩ := h
      rw [object.injEq] at hmembers
      subst hmembers
      obtain ⟨first, hfirst, hsame⟩ :=
        exists_isDeclaration (hfinite declaration List.mem_cons_self) hvalue
      obtain ⟨decoded, hdecoded, hagree⟩ :=
        ih (fun other hother =>
          hfinite other (List.mem_cons_of_mem _ hother)) hrest
      exact ⟨first :: decoded,
        .cons ⟨Declaration.name_eq_of_agrees hsame, hfirst⟩ hdecoded,
        .cons hsame hagree⟩

theorem exists_isSchema {schema : Schema} (hfinite : schema.isFinite)
    {json : Json} (h : Keeps schema.toJson json) :
    ∃ decoded, IsSchema json decoded ∧
      List.Forall₂ (fun declaration other => declaration.agrees other)
        schema.declarations
        decoded.declarations := by
  obtain ⟨members, rfl⟩ : ∃ members, json = .object members := by
    cases h
    exact ⟨_, rfl⟩
  obtain ⟨decoded, hdecoded, hagree⟩ :=
    exists_forall_isDeclaration (by simpa [Schema.isFinite] using hfinite) h
  have hnames : schema.declarations.map (·.name) = decoded.map (·.name) := by
    rw [← List.forall₂_eq_eq_eq, List.forall₂_map_left_iff,
      List.forall₂_map_right_iff]
    exact hagree.imp fun _ _ hsame => Declaration.name_eq_of_agrees hsame
  exact ⟨⟨decoded, hnames ▸ schema.distinct⟩, ⟨members, rfl, hdecoded⟩, hagree⟩

end Descriptor

end ShapeMend
