import ShapeMend.Proofs.Mend.Fields
import ShapeMend.Proofs.Schema.FieldLists

/-!
# Mending through references

Where literal unions hold nothing but literals, a reference either looks into
objects or compares a value as a whole.  What it accepts stays alike, and of
values that are alike it accepts all or none.
-/

namespace ShapeMend

open Json

/-! ## Literal unions -/

def admitsLiteral (alternatives : List Alternative) (value : Json) : Bool :=
  alternatives.any fun alternative =>
    match alternative.shape with
    | .literal literal => literal.accepts value
    | _ => false

def lastLiteral (alternatives : List Alternative) : Option Json :=
  alternatives.getLast?.map fun alternative =>
    match alternative.shape with
    | .literal literal => literal.toJson
    | _ => .null

private theorem isScalar_of_lastLiteral {alternatives : List Alternative}
    (h : ∀ alternative ∈ alternatives, alternative.isLiteral) {value : Json}
    (hvalue : lastLiteral alternatives = some value) : value.isScalar := by
  obtain ⟨last, hlast, rfl⟩ := Option.map_eq_some_iff.mp hvalue
  obtain ⟨literal, rfl⟩ :=
    AlternativeOf.eq_of_isLiteral (h last (List.mem_of_getLast? hlast))
  exact literal.isScalar_toJson

theorem admitsLiteral_alike (alternatives : List Alternative)
    {value other : Json} (h : Alike value other) :
    admitsLiteral alternatives value = admitsLiteral alternatives other := by
  unfold admitsLiteral
  congr 1
  funext alternative
  cases alternative.shape <;> simp [Literal.accepts_alike _ h]

section Literals

variable (references : References) (owner : String) (location : List Nat)
  (trail : Trail)

theorem Mend.firstAccepted_literals (index : Nat)
    {alternatives : List Alternative}
    (h : ∀ alternative ∈ alternatives, alternative.isLiteral) (value : Json) :
    firstAccepted references owner location trail index alternatives value =
      pure (if admitsLiteral alternatives value then some value else none) := by
  induction alternatives generalizing index with
  | nil => rfl
  | cons alternative rest ih =>
      obtain ⟨literal, rfl⟩ :=
        AlternativeOf.eq_of_isLiteral (h alternative (by simp))
      have htail := ih (index + 1) fun other hother =>
          h other (by simp [hother])
      cases hvalue : literal.accepts value <;>
        simp [firstAccepted, accept, hvalue, admitsLiteral, htail,
          Logged.pure_bind]

theorem Mend.lastFallback_literals (index : Nat)
    {alternatives : List Alternative}
    (h : ∀ alternative ∈ alternatives, alternative.isLiteral) :
    lastFallback references owner location trail index alternatives =
      pure (lastLiteral alternatives) := by
  induction alternatives generalizing index with
  | nil => rfl
  | cons alternative rest ih =>
      obtain ⟨literal, rfl⟩ :=
        AlternativeOf.eq_of_isLiteral (h alternative (by simp))
      have htail := ih (index + 1) fun other hother =>
          h other (by simp [hother])
      cases rest with
      | nil => rfl
      | cons next rest => simpa [lastFallback, lastLiteral] using htail

end Literals

namespace Declaration

private theorem mem_unionAlternatives {declaration : Declaration}
    {alternative : Alternative}
    (h : alternative ∈ declaration.unionAlternatives) :
    ∃ field ∈ declaration.fields, alternative ∈ field.alternatives := by
  unfold unionAlternatives at h
  cases hfields : declaration.fields with
  | nil => simp [hfields] at h
  | cons field fields =>
      rw [hfields] at h
      exact ⟨field, by simp, h⟩

theorem Plain.unionAlternatives_literal {declaration : Declaration}
    (hplain : declaration.Plain) (hunion : declaration.kind.isObject = false) :
    ∀ alternative ∈ declaration.unionAlternatives, alternative.isLiteral := by
  intro alternative halternative
  obtain ⟨field, hfield, hinside⟩ := mem_unionAlternatives halternative
  exact hplain hunion field hfield alternative hinside

theorem unionAlternatives_literal {schema : Schema}
    (hplain : schema.LiteralUnionsPlain) {declaration : Declaration}
    (hmem : declaration ∈ schema.declarations)
    (hunion : declaration.kind.isObject = false) :
    ∀ alternative ∈ declaration.unionAlternatives, alternative.isLiteral :=
  (hplain declaration hmem).unionAlternatives_literal hunion

section Literals

variable {declaration : Declaration}
  (h : ∀ alternative ∈ declaration.unionAlternatives, alternative.isLiteral)
  (references : References) (trail : Trail)
include h

theorem acceptUnion_literals (value : Json) :
    declaration.acceptUnion references trail value =
      pure (if admitsLiteral declaration.unionAlternatives value then some value
        else none) :=
  Mend.firstAccepted_literals references _ _ trail 0 h value

theorem unionFallback_literals :
    declaration.unionFallback references trail =
      pure (lastLiteral declaration.unionAlternatives) :=
  Mend.lastFallback_literals references _ _ trail 0 h

theorem value_acceptUnion (value : Json) :
    (declaration.acceptUnion references trail value).value =
      if admitsLiteral declaration.unionAlternatives value then some value
      else none := by
  rw [acceptUnion_literals h, Logged.value_pure]

private theorem isScalar_unionFallback {value : Json}
    (hvalue : (declaration.unionFallback references trail).value = some value) :
    value.isScalar := by
  rw [unionFallback_literals h, Logged.value_pure] at hvalue
  exact isScalar_of_lastLiteral h hvalue

end Literals

end Declaration

/-- A value that is not accepted by a literal union gives way to its default, if
there is one. -/
theorem Schema.value_mendOne_eq_getD {schema : Schema}
    {declaration : Declaration} (hkind : declaration.kind.isObject = false)
    (value : Json) :
    (schema.mendOne declaration value).value =
      (declaration.acceptUnion (schema.references schema.declarations.length) []
        value).value.getD
        ((declaration.unionFallback
          (schema.references schema.declarations.length) []).value.getD
          value) := by
  cases haccept :
    (declaration.acceptUnion (schema.references schema.declarations.length) []
      value).value <;>
    simp [mendOne, References.mendOne, hkind, haccept]

/-! ## What stands behind a name

A name that is not declared leaves a value alone, an object declaration visits
it, and a literal union compares it. -/

namespace References

variable {schema : Schema} {name : String} (inner : Option References)
  (trail : Trail)

theorem of_within {inner : Option References} {trail : Trail} {site : Site}
    {below : References} (h : within inner trail site = some below) :
    site ∉ trail ∧ inner = some below := by
  unfold within at h
  split at h
  · cases h
  · next hnew => exact ⟨hnew, h⟩

def visit (declaration : Declaration) (value : Json) : Json :=
  match within inner trail declaration.site with
  | none => value
  | some below =>
    (Mend.object .tracked trail declaration.site (declaration.change below)
      value).value

theorem accept_undeclared (h : schema.find? name = none) (value : Json) :
    ((ofSchema .tracked schema inner).accept trail name value).value =
      some value := by
  simp [ofSchema, h]

theorem element_undeclared (h : schema.find? name = none) (item : Json) :
    ((ofSchema .tracked schema inner).element trail name item).value =
      item := by
  simp [ofSchema, h]

theorem fallback_undeclared (h : schema.find? name = none) :
    ((ofSchema .tracked schema inner).fallback trail name).value =
      .object [] := by
  simp [ofSchema, h]

section Declared

variable {declaration : Declaration}
  (hfind : schema.find? name = some declaration)
include hfind

theorem accept_object (hkind : declaration.kind.isObject = true)
    (value : Json) :
    ((ofSchema .tracked schema inner).accept trail name value).value =
      some (visit inner trail declaration value) := by
  cases h : within inner trail declaration.site <;>
    simp [ofSchema, visit, hfind, hkind, h]

theorem element_object (hkind : declaration.kind.isObject = true)
    (item : Json) :
    ((ofSchema .tracked schema inner).element trail name item).value =
      visit inner trail declaration item := by
  cases h : within inner trail declaration.site <;>
    simp [ofSchema, visit, hfind, hkind, h]

theorem fallback_object (hkind : declaration.kind.isObject = true) :
    ((ofSchema .tracked schema inner).fallback trail name).value =
      visit inner trail declaration (.object []) := by
  cases h : within inner trail declaration.site <;>
    simp [ofSchema, visit, Mend.fresh, hfind, hkind, h]

theorem element_union (hkind : declaration.kind.isObject = false)
    (item : Json) :
    ((ofSchema .tracked schema inner).element trail name item).value =
      item := by
  cases h :
    within inner trail declaration.site <;> simp [ofSchema, hfind, hkind, h]

theorem accept_union (hplain : schema.LiteralUnionsPlain)
    (hkind : declaration.kind.isObject = false) (value : Json) :
    ((ofSchema .tracked schema inner).accept trail name value).value =
      if (within inner trail declaration.site).isSome ∧
          admitsLiteral declaration.unionAlternatives value then some value
            else none := by
  have hmem := (Schema.mem_of_find?_eq_some hfind).1
  have hliteral := Declaration.unionAlternatives_literal hplain hmem hkind
  cases h : within inner trail declaration.site <;>
    simp [ofSchema, hfind, hkind, h, Declaration.value_acceptUnion hliteral]

theorem isScalar_fallback_union (hplain : schema.LiteralUnionsPlain)
    (hkind : declaration.kind.isObject = false) :
    ((ofSchema .tracked schema inner).fallback trail name).value.isScalar := by
  have hmem := (Schema.mem_of_find?_eq_some hfind).1
  have hliteral := Declaration.unionAlternatives_literal hplain hmem hkind
  cases h : within inner trail declaration.site with
  | none => simp [ofSchema, hfind, hkind, h, isScalar]
  | some below =>
      cases hvalue :
        (declaration.unionFallback below (declaration.site :: trail)).value with
      | none => simp [ofSchema, hfind, hkind, h, hvalue, isScalar]
      | some value =>
          simpa [ofSchema, hfind, hkind, h, hvalue] using
            Declaration.isScalar_unionFallback hliteral _ _ hvalue

end Declared

end References

end ShapeMend
