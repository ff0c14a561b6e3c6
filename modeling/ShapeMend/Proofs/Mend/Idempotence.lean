import ShapeMend.Proofs.Mend.Contexts

/-!
# When mending twice is mending once

A default comes from the last alternative of a field, but it is mended again by
the first alternative that accepts it, and by all other fields of its key.
Mending settles everything at once exactly when, in every context that can be
reached, what stands under a key after a default was supplied stays.
-/

namespace ShapeMend

open Json

/-- What the slots of a key leave where a default was supplied, they leave
again. -/
def Slots.KeepsDefaults (slots : Slots) : Prop :=
  ∀ key found, supplies key slots found = true →
    under key slots (under key slots found) = under key slots found

def Slots.Settles (slots : Slots) : Prop :=
  ∀ members, fill slots (fill slots members) = fill slots members

namespace Context

inductive Reaches (schema : Schema) : Context → Context → Prop where
  | here (context : Context) : Reaches schema context context
  | inside {context inner last : Context} (key : String) (isList : Bool) :
      enter schema key isList context = some inner → Reaches schema inner last →
      Reaches schema context last

/-- No default is changed when it is mended, however far inside it stands. -/
def KeepsDefaults (schema : Schema) (context : Context) : Prop :=
  ∀ inner, Reaches schema context inner → inner.slots.KeepsDefaults

variable {schema : Schema}

private theorem KeepsDefaults.enter {key : String} {isList : Bool}
    {context inner : Context} (hkeeps : KeepsDefaults schema context)
    (henter : enter schema key isList context = some inner) :
    KeepsDefaults schema inner := by
  intro last hlast
  exact hkeeps last (.inside key isList henter hlast)


end Context

theorem Slots.Settles.under_under {slots : Slots} (h : slots.Settles)
    (key : String) (found : Option Json) :
    under key slots (under key slots found) = under key slots found := by
  cases found with
  | none => simpa [Keyed.lookup] using (fill_fill_iff slots []).mp (h []) key
  | some value =>
      simpa [Keyed.lookup] using
        (fill_fill_iff slots [(key, value)]).mp (h [(key, value)]) key

private theorem sizeOf_lt_of_lookup {key : String} {value : Json}
    {members : Members} (h : Keyed.lookup key members = some value) :
    sizeOf value < sizeOf (Json.object members) := by
  have hmem := List.sizeOf_lt_of_mem (Keyed.mem_of_lookup h)
  simp only [Prod.mk.sizeOf_spec, Json.object.sizeOf_spec] at hmem ⊢
  omega

/-- Visiting the objects of a value twice is visiting them once, if that holds
of each of them. -/
private theorem Slots.renew_renew {slots : Slots} {value : Json}
    (h : ∀ members : Members, sizeOf (Json.object members) ≤ sizeOf value →
      fill slots (fill slots members) = fill slots members) :
    renew slots (renew slots value) = renew slots value := by
  cases value with
  | object members => simp [h members (Nat.le_refl _)]
  | array items =>
      simp only [renew_array, List.map_map, Json.array.injEq]
      apply List.map_congr_left
      intro item hitem
      cases item with
      | object members =>
          have hsize :
              sizeOf (Json.object members) ≤ sizeOf (Json.array items) := by
            have := List.sizeOf_lt_of_mem hitem
            simp only [Json.array.sizeOf_spec]
            omega
          simp [visit, h members hsize]
      | _ => rfl
  | _ => rfl

namespace Context

variable {schema : Schema}

/-- An object is settled if every value in it is, since missing members only get
defaults. -/
theorem fill_fill {context : Context} (hkeeps : KeepsDefaults schema context)
    {members : Members}
    (h : ∀ {key value},
      Keyed.lookup key members = some value →
      Slots.under key context.slots
      (Slots.under key context.slots (some value)) =
      Slots.under key context.slots (some value)) :
    Slots.fill context.slots (Slots.fill context.slots members) =
      Slots.fill context.slots members := by
  rw [Slots.fill_fill_iff]
  intro key
  cases hfound : Keyed.lookup key members with
  | none =>
      by_cases hmissing : Slots.supplies key context.slots none
      · exact hkeeps context (.here context) key none hmissing
      · have hnone := Slots.under_none (by simpa using hmissing)
        rw [hnone, hnone]
  | some value => exact h hfound

/-- A value that no default replaced is mended inside, and there by induction on
its size. -/
private theorem under_under (hplain : schema.LiteralUnionsPlain) (value : Json)
    (context : Context) (hsound : Sound schema context)
    (hkeeps : KeepsDefaults schema context) (key : String) :
    Slots.under key context.slots (Slots.under key context.slots (some value)) =
      Slots.under key context.slots (some value) := by
  by_cases hsupplies : Slots.supplies key context.slots (some value)
  · exact hkeeps context (.here context) key (some value) hsupplies
  · by_cases hscalar : value.isScalar
    · have hunder := under_of_isScalar hsound hscalar (by simpa using hsupplies)
      rw [hunder, hunder]
    · obtain ⟨isList, halike⟩ : ∃ isList, Alike (hollow isList) value := by
        cases value with
        | object members => exact ⟨false, by simp [hollow]⟩
        | array items => exact ⟨true, by simp [hollow]⟩
        | _ => simp [isScalar] at hscalar
      cases henter : Context.enter schema key isList context with
      | none => exact absurd (supplies_of_enter hsound henter halike) hsupplies
      | some inner =>
          rw [under_of_enter hsound henter halike,
            under_of_enter hsound henter (halike.trans (Slots.renew_alike ..)),
            Slots.renew_renew]
          intro members hsize
          apply fill_fill (hkeeps.enter henter)
          intro name other hfound
          have hsmaller : sizeOf other < sizeOf value :=
            Nat.lt_of_lt_of_le (sizeOf_lt_of_lookup hfound) hsize
          exact under_under hplain other inner (sound_enter hplain henter)
            (hkeeps.enter henter) name
termination_by sizeOf value

private theorem settles_of_keepsDefaults (hplain : schema.LiteralUnionsPlain)
    {context : Context} (hsound : Sound schema context)
    (hkeeps : KeepsDefaults schema context) : context.slots.Settles := by
  intro members
  apply fill_fill hkeeps
  intro key value _
  exact under_under hplain value context hsound hkeeps key

/-! ## Defaults that are changed -/

private theorem settles_enter {key : String} {isList : Bool}
    {context inner : Context} (hsound : Sound schema context)
    (henter : enter schema key isList context = some inner)
    (hsettles : context.slots.Settles) : inner.slots.Settles := by
  intro members
  cases isList with
  | false =>
      have htwice := hsettles.under_under key (some (.object members))
      rw [under_of_enter hsound henter (by simp [hollow]),
        under_of_enter hsound henter (by simp [hollow])] at htwice
      simpa using htwice
  | true =>
      have htwice := hsettles.under_under key (some (.array [.object members]))
      rw [under_of_enter hsound henter (by simp [hollow]),
        under_of_enter hsound henter (by simp [hollow])] at htwice
      simpa [Slots.visit] using htwice

private theorem keepsDefaults_of_settles (hplain : schema.LiteralUnionsPlain)
    {context : Context} (hsound : Sound schema context)
    (hsettles : context.slots.Settles) : KeepsDefaults schema context := by
  intro last hlast
  induction hlast with
  | here context =>
      intro key found _
      exact hsettles.under_under key found
  | inside key isList henter _ ih =>
      exact ih (sound_enter hplain henter)
        (settles_enter hsound henter hsettles)

end Context

/-! ## Whole values -/

/-- The context of the objects that a declaration describes. -/
def Declaration.context (schema : Schema)
    (declaration : Declaration) : Context :=
  (Frame.ofDeclaration declaration schema.declarations.length []).context schema

namespace Schema

variable {schema : Schema} {declaration : Declaration}

theorem value_mendOne_object (hkind : declaration.kind.isObject = true)
    (value : Json) (hvalue : value ≠ .null) :
    (schema.mendOne declaration value).value =
      Slots.visit (declaration.context schema).slots value := by
  have hobject : (Mend.object .tracked [] declaration.site
      (declaration.change (schema.references schema.declarations.length))
        value).value =
      Slots.visit
        ((Frame.ofDeclaration declaration schema.declarations.length []).slots
        schema) value :=
    Frame.value_object_change declaration _ [] (by simp) value
  rw [Declaration.context, Context.slots_context, ← hobject]
  cases value <;> simp_all [mendOne, References.mendOne]

theorem value_mendOne_null (hkind : declaration.kind.isObject = true) :
    (schema.mendOne declaration .null).value =
      Slots.visit (declaration.context schema).slots (.object []) := by
  rw [← value_mendOne_object hkind _ (by simp)]
  simp [mendOne, References.mendOne, hkind, Mend.fresh]

private theorem value_mendOne_union (hplain : schema.LiteralUnionsPlain)
    (hmem : declaration ∈ schema.declarations)
    (hkind : declaration.kind.isObject = false) (value : Json) :
    (schema.mendOne declaration value).value =
      if admitsLiteral declaration.unionAlternatives value then value
      else
        (declaration.unionFallback
          (schema.references schema.declarations.length)
        []).value.getD value := by
  have hliteral := Declaration.unionAlternatives_literal hplain hmem hkind
  rw [value_mendOne_eq_getD hkind, Declaration.value_acceptUnion hliteral]
  split
  · rfl
  · rfl

private theorem mendOne_mendOne_union (hplain : schema.LiteralUnionsPlain)
    (hmem : declaration ∈ schema.declarations)
    (hkind : declaration.kind.isObject = false) (value : Json) :
    (schema.mendOne declaration
      (schema.mendOne declaration value).value).value =
      (schema.mendOne declaration value).value := by
  simp only [value_mendOne_union hplain hmem hkind]
  by_cases hvalue : admitsLiteral declaration.unionAlternatives value
  · simp [hvalue]
  · cases hdefault : (declaration.unionFallback
        (schema.references schema.declarations.length) []).value with
    | none => simp [hvalue]
    | some default => simp [hvalue]

private theorem mendOne_mendOne_object
    (hkind : declaration.kind.isObject = true)
    (hsettles : (declaration.context schema).slots.Settles) (value : Json) :
    (schema.mendOne declaration
      (schema.mendOne declaration value).value).value =
      (schema.mendOne declaration value).value := by
  have htwice : ∀ members : Members,
      (schema.mendOne declaration (.object
          (Slots.fill (declaration.context schema).slots members))).value =
        .object (Slots.fill (declaration.context schema).slots members) := by
    intro members
    rw [value_mendOne_object hkind _ (by simp), Slots.visit, hsettles members]
  cases value with
  | null =>
      rw [value_mendOne_null hkind]
      exact htwice []
  | object members =>
      rw [value_mendOne_object hkind (.object members) (by simp)]
      exact htwice members
  | _ => simp [value_mendOne_object hkind, Slots.visit]

private theorem isObject_mendOne (hkind : declaration.kind.isObject = true)
    {value : Json} (hvalue : value.isObject) :
    (schema.mendOne declaration value).value.isObject := by
  cases value <;> simp_all [isObject]
  rw [value_mendOne_object hkind _ (by simp)]
  simp [Slots.visit]

private theorem mendList_mendList
    (h : declaration.kind.isObject = true → ∀ value,
      (schema.mendOne declaration
      (schema.mendOne declaration value).value).value =
      (schema.mendOne declaration value).value)
    (value : Json) :
    (schema.mendList declaration
      (schema.mendList declaration value).value).value =
      (schema.mendList declaration value).value := by
  cases hkind : declaration.kind.isObject with
  | false => cases value <;> simp [mendList, Declaration.mendList, hkind]
  | true =>
      cases value with
      | array items =>
          simp only [mendList, Declaration.mendList, hkind, if_true,
            Logged.value_bind, Logged.value_mapM, Logged.value_pure,
            List.map_map, Json.array.injEq]
          apply List.map_congr_left
          intro item _
          by_cases hitem : item.isObject
          · simp [hitem, isObject_mendOne hkind hitem, h hkind item]
          · simp [hitem]
      | _ => simp [mendList, Declaration.mendList, hkind]

/-- Mending a value of a declaration twice is mending it once exactly when no
default is changed. -/
theorem mend_mend_iff_keepsDefaults (hplain : schema.LiteralUnionsPlain)
    (hmem : declaration ∈ schema.declarations) :
    (∀ isArray value,
      (schema.mend declaration isArray
        (schema.mend declaration isArray value).value).value =
        (schema.mend declaration isArray value).value) ↔
      (declaration.kind.isObject = true →
        Context.KeepsDefaults schema (declaration.context schema)) := by
  have hsound : Context.Sound schema (declaration.context schema) :=
    Frame.sound_context hplain _
  constructor
  · intro htwice hkind
    apply Context.keepsDefaults_of_settles hplain hsound
    intro members
    have hobject := htwice false (.object members)
    simp only [mend, Bool.false_eq_true, if_false] at hobject
    rw [value_mendOne_object hkind (.object members) (by simp), Slots.visit,
      value_mendOne_object hkind _ (by simp), Slots.visit] at hobject
    exact Json.object.inj hobject
  · intro hkeeps isArray value
    have hone : ∀ value,
        (schema.mendOne declaration
          (schema.mendOne declaration value).value).value =
          (schema.mendOne declaration value).value := by
      cases hkind : declaration.kind.isObject with
      | false => exact mendOne_mendOne_union hplain hmem hkind
      | true =>
          exact mendOne_mendOne_object hkind
            (Context.settles_of_keepsDefaults hplain hsound (hkeeps hkind))
    cases isArray with
    | false => exact hone value
    | true => exact mendList_mendList (fun _ => hone) value

end Schema

end ShapeMend
