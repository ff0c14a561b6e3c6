import ShapeMend.Schema.Basic

/-!
# Field lists of a schema

Fields are listed in declarations and in objects written out in place, at any
depth.  The conditions under which mending is well behaved speak of all these
lists.
-/

namespace ShapeMend

mutual

def Shape.fieldLists : Shape → List (List (FieldOf Shape))
  | .inline fields => fields :: nestedLists fields
  | _ => []

/-- The field lists written out inside the alternatives of fields. -/
def nestedLists : List (FieldOf Shape) → List (List (FieldOf Shape))
  | [] => []
  | ⟨_, _, alternatives⟩ :: fields =>
      alternativeLists alternatives ++ nestedLists fields

def alternativeLists : List (AlternativeOf Shape) → List (List (FieldOf Shape))
  | [] => []
  | ⟨shape, _⟩ :: alternatives =>
      shape.fieldLists ++ alternativeLists alternatives

end

def Declaration.fieldLists (declaration : Declaration) : List (List Field) :=
  declaration.fields :: nestedLists declaration.fields

def AlternativeOf.isLiteral : AlternativeOf Shape → Bool
  | ⟨.literal _, false⟩ => true
  | _ => false

theorem AlternativeOf.eq_of_isLiteral {alternative : Alternative}
    (h : alternative.isLiteral) :
    ∃ literal, alternative = ⟨.literal literal, false⟩ := by
  unfold isLiteral at h
  split at h
  · next literal => exact ⟨literal, rfl⟩
  · simp at h

/-- If the declaration is a literal union, it holds nothing but literals. -/
def Declaration.Plain (declaration : Declaration) : Prop :=
  declaration.kind.isObject = false →
    ∀ field ∈ declaration.fields, ∀ alternative ∈ field.alternatives,
      alternative.isLiteral

instance (declaration : Declaration) : Decidable declaration.Plain :=
  inferInstanceAs (Decidable (_ → ∀ field ∈ declaration.fields, _))

theorem Declaration.plain_of_isObject {declaration : Declaration}
    (hkind : declaration.kind.isObject = true) : declaration.Plain := by
  intro hother
  simp [hkind] at hother

namespace Schema

variable (schema : Schema)

/-- No field list names a key twice. -/
def DistinctKeys : Prop :=
  ∀ declaration ∈ schema.declarations, ∀ fields ∈ declaration.fieldLists,
    (fields.map (·.key)).Nodup

instance : Decidable schema.DistinctKeys :=
  inferInstanceAs (Decidable (∀ declaration ∈ schema.declarations, _))

/-- Literal unions hold nothing but literals. -/
def LiteralUnionsPlain : Prop :=
  ∀ declaration ∈ schema.declarations, declaration.Plain

instance : Decidable schema.LiteralUnionsPlain :=
  inferInstanceAs (Decidable (∀ declaration ∈ schema.declarations,
    declaration.Plain))

def namesFields : Shape → Bool
  | .inline _ => true
  | .reference name => (schema.find? name).any (·.kind.isObject)
  | _ => false

/-- Whether the default of a shape is an object.  It is so for a name that is
not declared. -/
def defaultsToObject : Shape → Bool
  | .inline _ => true
  | .reference name => (schema.find? name).all (·.kind.isObject)
  | _ => false

/-- If the last alternative supplies an object, no earlier one would mend that
object by other fields. -/
def LastIsFirst (alternatives : List Alternative) : Prop :=
  ∀ last ∈ alternatives.getLast?,
    last.isArray = false → schema.defaultsToObject last.shape →
    ∀ alternative ∈ alternatives.dropLast, alternative.isArray = false →
      schema.namesFields alternative.shape = false

instance (alternatives : List Alternative) :
    Decidable (schema.LastIsFirst alternatives) :=
  inferInstanceAs (Decidable (∀ last ∈ alternatives.getLast?, _ → _))

/-- Every field of every list keeps the objects that it supplies. -/
def ObjectsLast : Prop :=
  ∀ declaration ∈ schema.declarations, ∀ fields ∈ declaration.fieldLists,
    ∀ field ∈ fields, schema.LastIsFirst field.alternatives

instance : Decidable schema.ObjectsLast :=
  inferInstanceAs (Decidable (∀ declaration ∈ schema.declarations, _))

variable {schema}

theorem defaultsToObject_of_namesFields {shape : Shape}
    (h : schema.namesFields shape) : schema.defaultsToObject shape := by
  cases shape with
  | primitive primitive => exact h
  | literal literal => exact h
  | inline fields => rfl
  | reference name =>
      cases hfind :
        schema.find? name <;> simp_all [namesFields, defaultsToObject]

theorem mem_of_find?_eq_some {name : String} {declaration : Declaration}
    (h : schema.find? name = some declaration) :
    declaration ∈ schema.declarations ∧ declaration.name = name :=
  ⟨List.mem_of_find?_eq_some h, by simpa using List.find?_some h⟩

end Schema

/-! ## The lists inside a list -/

theorem mem_nestedLists {fields : List Field} {inside : List Field} :
    inside ∈ nestedLists fields ↔
      ∃ field ∈ fields, ∃ alternative ∈ field.alternatives,
        inside ∈ alternative.shape.fieldLists := by
  induction fields with
  | nil => simp [nestedLists]
  | cons field fields ih =>
      obtain ⟨key, optional, alternatives⟩ := field
      have halternatives : inside ∈ alternativeLists alternatives ↔
          ∃ alternative ∈ alternatives,
            inside ∈ alternative.shape.fieldLists := by
        induction alternatives with
        | nil => simp [alternativeLists]
        | cons alternative alternatives ihAlternatives =>
            simp [alternativeLists, ihAlternatives]
      simp [nestedLists, halternatives, ih]

theorem sizeOf_lt_of_inline {fields inside : List Field} {field : Field}
    (hfield : field ∈ fields) {alternative : Alternative}
    (halternative : alternative ∈ field.alternatives)
    (hshape : alternative.shape = .inline inside) :
    sizeOf inside < sizeOf fields := by
  have hinside : sizeOf inside < sizeOf alternative := by
    obtain ⟨shape, isArray⟩ := alternative
    subst hshape
    simp only [AlternativeOf.mk.sizeOf_spec, Shape.inline.sizeOf_spec]
    omega
  have houtside : sizeOf field.alternatives < sizeOf field := by
    obtain ⟨key, optional, alternatives⟩ := field
    simp only [FieldOf.mk.sizeOf_spec]
    omega
  have := List.sizeOf_lt_of_mem halternative
  have := List.sizeOf_lt_of_mem hfield
  omega

private theorem nestedLists_trans {outer middle inner : List Field}
    (hmiddle : middle ∈ nestedLists outer)
    (hinner : inner ∈ nestedLists middle) : inner ∈ nestedLists outer := by
  obtain ⟨field, hfield, alternative, halternative, hlist⟩ :=
    mem_nestedLists.mp hmiddle
  refine mem_nestedLists.mpr ⟨field, hfield, alternative, halternative, ?_⟩
  cases hshape : alternative.shape with
  | inline fields =>
      have hsmaller := sizeOf_lt_of_inline hfield halternative hshape
      simp only [hshape, Shape.fieldLists, List.mem_cons] at hlist ⊢
      rcases hlist with rfl | hlist
      · exact .inr hinner
      · exact .inr (nestedLists_trans hlist hinner)
  | _ => simp [hshape, Shape.fieldLists] at hlist
termination_by sizeOf outer

/-- The lists written out in a list of a declaration are lists of the
declaration. -/
theorem Declaration.mem_fieldLists_of_inline {declaration : Declaration}
    {fields inside : List Field} (hfields : fields ∈ declaration.fieldLists)
    {field : Field} (hfield : field ∈ fields) {alternative : Alternative}
    (halternative : alternative ∈ field.alternatives)
    (hshape : alternative.shape = .inline inside) :
    inside ∈ declaration.fieldLists := by
  have hinside : inside ∈ nestedLists fields :=
    mem_nestedLists.mpr ⟨field, hfield, alternative, halternative, by
      simp [hshape, Shape.fieldLists]⟩
  rcases List.mem_cons.mp hfields with rfl | hnested
  · exact List.mem_cons_of_mem _ hinside
  · exact List.mem_cons_of_mem _ (nestedLists_trans hnested hinside)

end ShapeMend
