import ShapeMend.Proofs.Mend.Completeness

/-!
# Values at the top

A value at the top is mended as it is under the key of a field whose only
alternative names the declaration.  There the trail ends with the site of the
object around it, and references are followed through one declaration more.
Neither matters, as nothing leads back to that object.  Only a literal union
without literals tells the two apart: it leaves a value at the top as it is, and
puts null in the place of one under a key.
-/

namespace ShapeMend

open Json

/-! ## Names that do not occur -/

mutual

def Shape.mentions (name : String) : Shape → Bool
  | .reference other => other = name
  | .inline fields => fieldsMention name fields
  | _ => false

def fieldsMention (name : String) : List (FieldOf Shape) → Bool
  | [] => false
  | ⟨_, _, alternatives⟩ :: fields =>
      alternativesMention name alternatives || fieldsMention name fields

def alternativesMention (name : String) : List (AlternativeOf Shape) → Bool
  | [] => false
  | ⟨shape, _⟩ :: alternatives =>
      shape.mentions name || alternativesMention name alternatives

end

/-- The name is not declared, and nothing refers to it. -/
structure Schema.Unnamed (schema : Schema) (name : String) : Prop where
  absent : schema.find? name = none
  unmentioned : ∀ declaration ∈ schema.declarations,
    fieldsMention name declaration.fields = false

/-- The second references do at the end of a trail that begins with a
declaration what the first do at a trail without it, as long as that declaration
is not mentioned. -/
structure References.Matches (name : String) (first second : References) :
    Prop where
  enter : first.enter = .tracked ∧ second.enter = .tracked
  accept : ∀ (trail : Trail) (other : String), other ≠ name → ∀ value,
    second.accept (trail ++ [.declaration name]) other value =
      first.accept trail other value
  element : ∀ (trail : Trail) (other : String), other ≠ name → ∀ item,
    second.element (trail ++ [.declaration name]) other item =
      first.element trail other item
  fallback : ∀ (trail : Trail) (other : String), other ≠ name →
    second.fallback (trail ++ [.declaration name]) other =
      first.fallback trail other
  describesObject : ∀ other,
    other ≠ name → second.describesObject other = first.describesObject other

namespace Mend

variable {name : String} {first second : References}

theorem object_matches {trail : Trail} {site : Site}
    (hsite : site ≠ .declaration name)
    {change other : Trail → Members → Logged Members}
    (h : ∀ members,
      other (site :: trail ++ [.declaration name]) members =
      change (site :: trail) members)
    (value : Json) :
    object .tracked (trail ++ [.declaration name]) site other value =
      object .tracked trail site change value := by
  cases value with
  | object members =>
      simp only [object, Entry.tracked, List.mem_append, List.mem_singleton,
        hsite, or_false]
      split
      · rfl
      · rw [← List.cons_append, h]
  | _ => rfl

mutual

theorem shape_matches (hmatches : first.Matches name second) (shape : Shape)
    (hfree : shape.mentions name = false) (owner : String) (location : List Nat)
    (trail : Trail) :
    (∀ value,
      accept second owner location (trail ++ [.declaration name]) shape value =
        accept first owner location trail shape value) ∧
      (∀ value,
        acceptList second owner location (trail ++ [.declaration name])
        shape value =
        acceptList first owner location trail shape value) ∧
      fallback second owner location (trail ++ [.declaration name]) shape =
        fallback first owner location trail shape := by
  match shape with
  | .primitive primitive => exact ⟨fun _ => rfl, fun _ => rfl, rfl⟩
  | .literal literal => exact ⟨fun _ => rfl, fun _ => rfl, rfl⟩
  | .reference other =>
      have hother : other ≠ name := by simpa [Shape.mentions] using hfree
      refine ⟨hmatches.accept trail other hother, fun value => ?_,
        hmatches.fallback trail other hother⟩
      cases value with
      | array items =>
          simp only [acceptList]
          rw [funext (hmatches.element trail other hother)]
      | _ =>
          simp only [acceptList]
          rw [hmatches.describesObject other hother]
  | .inline fields =>
      have hobject (value : Json) :
          object second.enter (trail ++ [.declaration name])
            (.inline owner location)
              (fun trail members => Mend.fields second owner location trail 0
                fields members) value =
            object first.enter trail (.inline owner location)
              (fun trail members => Mend.fields first owner location trail 0
                fields members) value := by
        rw [hmatches.enter.1, hmatches.enter.2]
        exact object_matches (by simp)
          (fields_matches hmatches fields hfree owner location
            (.inline owner location :: trail) 0) value
      refine ⟨fun value => ?_, fun value => ?_, hobject (.object [])⟩
      · simp only [accept]
        rw [hobject]
      · cases value with
        | array items =>
            simp only [acceptList]
            rw [funext hobject]
        | _ => rfl

private theorem fields_matches (hmatches : first.Matches name second)
    (fields : List (FieldOf Shape)) (hfree : fieldsMention name fields = false)
    (owner : String) (location : List Nat) (trail : Trail) (index : Nat)
    (members : Members) :
    Mend.fields second owner location (trail ++ [.declaration name]) index
      fields members =
      Mend.fields first owner location trail index fields members := by
  match fields with
  | [] => rfl
  | ⟨key, optional, alternatives⟩ :: rest =>
      rw [fieldsMention, Bool.or_eq_false_iff] at hfree
      obtain ⟨haccepted, hdefault⟩ :=
        alternatives_matches hmatches alternatives hfree.1 owner
          (index :: location) trail 0
      have hrest :=
        fields_matches hmatches rest hfree.2 owner location trail (index + 1)
      simp only [Mend.fields, haccepted, hdefault, hrest]

private theorem alternatives_matches (hmatches : first.Matches name second)
    (alternatives : List (AlternativeOf Shape))
    (hfree : alternativesMention name alternatives = false) (owner : String)
    (location : List Nat) (trail : Trail) (index : Nat) :
    (∀ value,
      firstAccepted second owner location (trail ++ [.declaration name]) index
      alternatives value =
        firstAccepted first owner location trail index alternatives value) ∧
      lastFallback second owner location (trail ++ [.declaration name]) index
        alternatives =
        lastFallback first owner location trail index alternatives := by
  match alternatives with
  | [] => exact ⟨fun _ => rfl, rfl⟩
  | ⟨shape, isArray⟩ :: rest =>
      rw [alternativesMention, Bool.or_eq_false_iff] at hfree
      obtain ⟨hone, hlist, hdefault⟩ :=
        shape_matches hmatches shape hfree.1 owner (index :: location) trail
      obtain ⟨hlater, hlast⟩ :=
        alternatives_matches hmatches rest hfree.2 owner location trail
          (index + 1)
      refine ⟨fun value => by
        simp only [firstAccepted, hone, hlist, hlater], ?_⟩
      cases rest with
      | nil => simp only [lastFallback, hdefault]
      | cons next rest => exact hlast

end

end Mend

/-! ## References in a schema with one declaration more -/

private theorem References.within_matches {name : String}
    {first second : Option References}
    (hinner : Option.Rel (Matches name) first second) (trail : Trail)
    {site : Site} (hsite : site ≠ .declaration name) :
    within first trail site = none ∧
      within second (trail ++ [.declaration name]) site = none ∨
      ∃ below other, within first trail site = some below ∧
        within second (trail ++ [.declaration name]) site = some other ∧
          below.Matches name other := by
  simp only [within, List.mem_append, List.mem_singleton, hsite, or_false]
  split
  · exact .inl ⟨rfl, rfl⟩
  · rcases hinner with hbelow | _
    · exact .inr ⟨_, _, rfl, rfl, hbelow⟩
    · exact .inl ⟨rfl, rfl⟩

section

variable {schema : Schema} {outer : Declaration}
  (hfree : schema.Unnamed outer.name)
include hfree

namespace Schema.Unnamed

theorem find?_insert_of_ne {name : String} (hname : name ≠ outer.name) :
    (schema.insert outer hfree.absent).find? name = schema.find? name := by
  rw [find?_insert, if_neg (Ne.symm hname), Option.or_none]

private theorem ne_of_find?_eq_some {name : String} {declaration : Declaration}
    (hfind : schema.find? name = some declaration) : name ≠ outer.name := by
  rintro rfl
  exact Option.some_ne_none _ (hfind.symm.trans hfree.absent)

theorem site_ne {declaration : Declaration}
    (hmem : declaration ∈ schema.declarations) :
    declaration.site ≠ .declaration outer.name := by
  intro hsite
  exact not_mem_names_of_find?_eq_none hfree.absent
    (Site.declaration.inj hsite ▸ List.mem_map_of_mem hmem)

private theorem alternativesMention_union {declaration : Declaration}
    (hmem : declaration ∈ schema.declarations) :
    alternativesMention outer.name declaration.unionAlternatives = false := by
  have hfields := hfree.unmentioned declaration hmem
  unfold Declaration.unionAlternatives
  cases hlist : declaration.fields with
  | nil => rfl
  | cons field rest =>
      rw [hlist] at hfields
      exact (Bool.or_eq_false_iff.mp hfields).1

end Schema.Unnamed

section Declared

variable {first second : References}
  (hmatches : first.Matches outer.name second) {declaration : Declaration}
  (hmem : declaration ∈ schema.declarations)
include hmatches hmem

theorem Declaration.object_matches (trail : Trail) (value : Json) :
    Mend.object .tracked (trail ++ [.declaration outer.name]) declaration.site
      (declaration.change second) value =
      Mend.object .tracked trail declaration.site (declaration.change first)
        value :=
  Mend.object_matches (hfree.site_ne hmem)
    (Mend.fields_matches hmatches declaration.fields
      (hfree.unmentioned declaration hmem) declaration.name []
      (declaration.site :: trail) 0) value

private theorem Declaration.union_matches (trail : Trail) :
    (∀ value,
      declaration.acceptUnion second
      (trail ++ [.declaration outer.name]) value =
        declaration.acceptUnion first trail value) ∧
      declaration.unionFallback second (trail ++ [.declaration outer.name]) =
        declaration.unionFallback first trail :=
  Mend.alternatives_matches hmatches declaration.unionAlternatives
    (hfree.alternativesMention_union hmem)
    declaration.name unionLocation trail 0

end Declared

namespace References

private theorem Matches.ofSchema {first second : Option References}
    (hinner : Option.Rel (Matches outer.name) first second) :
    (ofSchema .tracked schema first).Matches outer.name
      (ofSchema .tracked (schema.insert outer hfree.absent) second) where
  enter := ⟨rfl, rfl⟩
  describesObject name hname := by
    simp only [References.ofSchema, hfree.find?_insert_of_ne hname]
  accept trail name hname value := by
    simp only [References.ofSchema, hfree.find?_insert_of_ne hname]
    cases hfind : schema.find? name with
    | none => rfl
    | some declaration =>
        have hmem := (Schema.mem_of_find?_eq_some hfind).1
        rcases within_matches hinner trail (hfree.site_ne hmem) with
          ⟨hfirst, hsecond⟩ | ⟨below, other, hfirst, hsecond, hbelow⟩
        · simp only [hfirst, hsecond]
        · simp only [hfirst, hsecond]
          rw [Declaration.object_matches hfree hbelow hmem trail value,
            ← List.cons_append,
            (Declaration.union_matches hfree hbelow hmem
              (declaration.site :: trail)).1]
  element trail name hname item := by
    simp only [References.ofSchema, hfree.find?_insert_of_ne hname]
    cases hfind : schema.find? name with
    | none => rfl
    | some declaration =>
        have hmem := (Schema.mem_of_find?_eq_some hfind).1
        rcases within_matches hinner trail (hfree.site_ne hmem) with
          ⟨hfirst, hsecond⟩ | ⟨below, other, hfirst, hsecond, hbelow⟩
        · simp only [hfirst, hsecond]
        · simp only [hfirst, hsecond]
          rw [Declaration.object_matches hfree hbelow hmem trail item]
  fallback trail name hname := by
    simp only [References.ofSchema, hfree.find?_insert_of_ne hname]
    cases hfind : schema.find? name with
    | none => rfl
    | some declaration =>
        have hmem := (Schema.mem_of_find?_eq_some hfind).1
        rcases within_matches hinner trail (hfree.site_ne hmem) with
          ⟨hfirst, hsecond⟩ | ⟨below, other, hfirst, hsecond, hbelow⟩
        · simp only [hfirst, hsecond]
        · simp only [hfirst, hsecond]
          rw [Mend.fresh, Declaration.object_matches hfree hbelow hmem trail
            (.object []), ← List.cons_append,
            (Declaration.union_matches hfree hbelow hmem
              (declaration.site :: trail)).2, Mend.fresh]

private theorem matches_insert (depth : Nat) :
    (schema.references depth).Matches outer.name
      ((schema.insert outer hfree.absent).references depth) := by
  induction depth with
  | zero => exact .ofSchema hfree .none
  | succ depth ih => exact .ofSchema hfree (.some ih)

end References

end

/-! ## A value under a key -/

/-- The members of an object that holds a value under a key; null stands for a
missing value. -/
def holding (key : String) : Json → Members
  | .null => []
  | value => [(key, value)]

namespace Mend

variable (references : References) (owner : String) (location : List Nat)
  (trail : Trail)

def underKey (alternative : Alternative) : Json → Json
  | .null => standIn references owner location trail alternative
  | value => (receive references owner location trail alternative value).getD
      (standIn references owner location trail alternative)

private theorem underKey_of_ne {alternative : Alternative} {value : Json}
    (h : value ≠ .null) :
    underKey references owner location trail alternative value =
      (receive references owner location trail alternative value).getD
        (standIn references owner location trail alternative) := by
  cases value with
  | null => exact absurd rfl h
  | _ => rfl

private theorem value_fields_holding (key : String) (optional : Bool)
    (alternative : Alternative) (value : Json) :
    (fields references owner location trail 0 [⟨key, optional, [alternative]⟩]
      (holding key value)).value =
      [(key, underKey references owner (0 :: 0 :: location) trail alternative
        value)] := by
  have hdefault :=
    value_lastFallback_concat references owner (0 :: location) trail 0 []
      alternative
  rw [List.nil_append, List.length_nil, Nat.add_zero] at hdefault
  have hfill (members : Members) :
      Slots.fill (slots references owner location trail 0
      [⟨key, optional, [alternative]⟩]) members = Keyed.put key
        (((Keyed.lookup key members).bind
          (receive references owner (0 :: 0 :: location) trail
          alternative)).getD
          (standIn references owner (0 :: 0 :: location) trail alternative))
            members := by
    cases hfound : (Keyed.lookup key members).bind
        (receive references owner (0 :: 0 :: location) trail alternative) <;>
      simp [slots, Slots.fill, Slot.fill, slot, value_firstAccepted_cons,
        hdefault, hfound]
  rw [value_fields, hfill]
  cases value <;> simp [holding, underKey, Keyed.lookup, Keyed.put]

end Mend

private theorem admitsLiteral_null (alternatives : List Alternative) :
    admitsLiteral alternatives .null = false := by
  rw [admitsLiteral, List.any_eq_false]
  intro alternative _
  split
  · next literal _ => cases literal <;> simp [Literal.accepts]
  · simp

namespace Declaration

variable {declaration : Declaration}

private theorem value_unionFallback_eq_none_iff (references : References)
    (trail : Trail) :
    (declaration.unionFallback references trail).value = none ↔
      declaration.unionAlternatives = [] := by
  rcases List.eq_nil_or_concat declaration.unionAlternatives
    with hnil | ⟨earlier, last, hconcat⟩
  · simp [unionFallback, hnil]
  · simp [unionFallback, hconcat, Mend.value_lastFallback_concat]

end Declaration

namespace Schema

section Outer

variable {schema : Schema} {outer : Declaration}
  (hfree : schema.Unnamed outer.name)

def outerReferences : References :=
  .ofSchema .tracked (schema.insert outer hfree.absent)
    (some ((schema.insert outer hfree.absent).references
      schema.declarations.length))

private theorem value_mend_outer (hkind : outer.kind.isObject)
    (members : Members) :
    ((schema.insert outer hfree.absent).mend outer false
      (.object members)).value =
      .object
        (Mend.fields (schema.outerReferences hfree) outer.name [] [outer.site] 0
          outer.fields members).value := by
  have hlength : (schema.insert outer hfree.absent).declarations.length =
      schema.declarations.length + 1 := by
    simp [insert]
  simp only [mend, mendOne, References.mendOne, hkind, Bool.false_eq_true,
    if_false, if_true, hlength]
  rw [Mend.value_object_members, if_neg List.not_mem_nil]
  rfl

variable {name : String} {declaration : Declaration}
  (hfind : schema.find? name = some declaration)
include hfree hfind

theorem find?_outer :
    (schema.insert outer hfree.absent).find? name = some declaration := by
  rw [hfree.find?_insert_of_ne (hfree.ne_of_find?_eq_some hfind), hfind]

theorem site_not_mem_outer : declaration.site ∉ [outer.site] := by
  rw [List.mem_singleton]
  exact hfree.site_ne (mem_of_find?_eq_some hfind).1

theorem visit_outer (value : Json) :
    References.visit
      (some ((schema.insert outer hfree.absent).references
        schema.declarations.length))
        [outer.site] declaration value =
      (Mend.object .tracked [] declaration.site
        (declaration.change (schema.references schema.declarations.length))
        value).value := by
  rw [References.visit, References.within,
    if_neg (site_not_mem_outer hfree hfind)]
  exact congrArg Logged.value
    (Declaration.object_matches hfree (References.matches_insert hfree _)
    (mem_of_find?_eq_some hfind).1 [] value)

private theorem underKey_object (hkind : declaration.kind.isObject)
    (location : List Nat) (value : Json) :
    Mend.underKey (schema.outerReferences hfree) outer.name location
      [outer.site] ⟨.reference name, false⟩ value =
      (schema.mendOne declaration value).value := by
  have hfound := find?_outer hfree hfind
  have haccept (value : Json) :
      Mend.receive (schema.outerReferences hfree) outer.name location
      [outer.site]
      ⟨.reference name, false⟩ value =
        some (Mend.object .tracked [] declaration.site
        (declaration.change (schema.references schema.declarations.length))
          value).value :=
    (References.accept_object _ _ hfound hkind value).trans
      (congrArg some (visit_outer hfree hfind value))
  have hdefault : Mend.standIn (schema.outerReferences hfree) outer.name
      location [outer.site]
      ⟨.reference name, false⟩ = (Mend.object .tracked [] declaration.site
        (declaration.change (schema.references schema.declarations.length))
          (.object [])).value :=
    (References.fallback_object _ _ hfound hkind).trans
      (visit_outer hfree hfind (.object []))
  cases value <;>
    simp [Mend.underKey, mendOne, References.mendOne, hkind, Mend.fresh,
      haccept, hdefault]

private theorem underKey_union
    (hliteral : ∀ alternative ∈ declaration.unionAlternatives,
      alternative.isLiteral)
    (hkind : declaration.kind.isObject = false) (location : List Nat)
    (value : Json) :
    Mend.underKey (schema.outerReferences hfree) outer.name location
      [outer.site] ⟨.reference name, false⟩ value =
        (schema.mendOne declaration value).value ↔
      (value ≠ .null → declaration.unionAlternatives ≠ []) := by
  have hfound := find?_outer hfree hfind
  have hsite := site_not_mem_outer hfree hfind
  have haccept (value : Json) :
      Mend.receive (schema.outerReferences hfree) outer.name location
      [outer.site]
      ⟨.reference name, false⟩ value =
        if admitsLiteral declaration.unionAlternatives value then some value
        else none := by
    simp [outerReferences, Mend.receive, Mend.accept, References.ofSchema,
      References.within, hfound, hkind, hsite,
      Declaration.value_acceptUnion hliteral]
  have hdefault : Mend.standIn (schema.outerReferences hfree) outer.name
      location [outer.site]
      ⟨.reference name, false⟩ =
        (declaration.unionFallback
          (schema.references schema.declarations.length)
        []).value.getD .null := by
    simp [outerReferences, Mend.standIn, Mend.fallback, References.ofSchema,
      References.within, hfound, hkind, hsite,
      Declaration.unionFallback_literals hliteral]
  rw [value_mendOne_eq_getD hkind, Declaration.value_acceptUnion hliteral]
  by_cases hvalue : value = .null
  · subst hvalue
    simp [Mend.underKey, hdefault, admitsLiteral_null]
  rw [Mend.underKey_of_ne _ _ _ _ hvalue, haccept, hdefault, ne_eq, ne_eq,
    ← Declaration.value_unionFallback_eq_none_iff
      (schema.references schema.declarations.length) []]
  -- Both take over a literal, and otherwise the default; they differ where
  -- there is none.
  by_cases hadmits : admitsLiteral declaration.unionAlternatives value
  · have hfilled :
        (declaration.unionFallback
          (schema.references schema.declarations.length) []).value ≠ none := by
      rw [ne_eq, Declaration.value_unionFallback_eq_none_iff]
      intro hnil
      simp [hnil, admitsLiteral] at hadmits
    simp [hadmits, hfilled]
  · cases (declaration.unionFallback
      (schema.references schema.declarations.length) []).value with
    | none => simp [hadmits, hvalue, Ne.symm hvalue]
    | some default => simp [hadmits]

private theorem underKey_list (location : List Nat) (value : Json) :
    Mend.underKey (schema.outerReferences hfree) outer.name location
      [outer.site] ⟨.reference name, true⟩ value =
      (schema.mendList declaration value).value := by
  have hfound := find?_outer hfree hfind
  cases value with
  | null => rfl
  | array items =>
      have hitems : Mend.underKey (schema.outerReferences hfree) outer.name
          location [outer.site]
          ⟨.reference name, true⟩ (.array items) = .array (items.map fun item =>
            ((schema.outerReferences hfree).element [outer.site] name
              item).value) := by
        simp [Mend.underKey, Mend.receive, Mend.acceptList]
      rw [hitems, mendList, Declaration.mendList]
      cases hkind : declaration.kind.isObject with
      | false =>
          have helement (item : Json) :
              ((schema.outerReferences hfree).element [outer.site] name
                item).value = item :=
            References.element_union _ _ hfound hkind item
          simp [helement]
      | true =>
          simp only [if_true, Logged.value_bind, Logged.value_mapM,
            Logged.value_pure]
          congr 1
          apply List.map_congr_left
          intro item _
          rw [outerReferences, References.element_object _ _ hfound hkind,
            visit_outer hfree hfind]
          cases item <;>
            simp [isObject, mendOne, References.mendOne, hkind, Mend.object]
  | _ =>
      have hdescribes : (schema.outerReferences hfree).describesObject name =
          declaration.kind.isObject := by
        simp [outerReferences, References.ofSchema, hfound]
      cases hkind : declaration.kind.isObject <;>
        simp [Mend.underKey, Mend.receive, Mend.acceptList, Mend.standIn,
          mendList, Declaration.mendList, hdescribes, hkind]

end Outer

/-- A value at the top is mended as under the key of a field for the declaration
alone, unless a literal union has no literals: where there is a value to be
replaced by the default, it stays at the top and null takes its place under the
key. -/
theorem mend_eq_underKey_iff {schema : Schema}
    (hunions : schema.UnionsOfLiterals) {name : String}
    {declaration : Declaration} (hfind : schema.find? name = some declaration)
    (isArray : Bool) {outer : Declaration} (hfree : schema.Unnamed outer.name)
    (hkind : outer.kind.isObject) {key : String} {optional : Bool}
    (hfields : outer.fields = [⟨key, optional, [⟨.reference name, isArray⟩]⟩])
    (value : Json) :
    ∃ held,
      ((schema.insert outer hfree.absent).mend outer false
        (.object (holding key value))).value =
        .object [(key, held)] ∧
      (held = (schema.mend declaration isArray value).value ↔
        (isArray = false → declaration.kind.isObject = false → value ≠ .null →
          declaration.unionAlternatives ≠ [])) := by
  refine ⟨_, by
    rw [value_mend_outer hfree hkind, hfields, Mend.value_fields_holding], ?_⟩
  cases isArray with
  | true => simp [mend, underKey_list hfree hfind]
  | false =>
      cases hobject : declaration.kind.isObject with
      | true => simp [mend, underKey_object hfree hfind hobject]
      | false =>
          have hliteral :=
            Declaration.unionAlternatives_literal hunions.1
              (mem_of_find?_eq_some hfind).1 hobject
          simp only [mend, Bool.false_eq_true, if_false,
            underKey_union hfree hfind hliteral hobject, forall_const]

/-- An interface with one field for a declaration. -/
def wrapper (target : String) : Declaration where
  name := "W"
  kind := .interface
  exported := false
  fields := [⟨"k", false, [⟨.reference target, false⟩]⟩]

theorem mend_eq_underKey_iff_threads : threads.UnionsOfLiterals ∧ ∃ declaration,
    threads.find? "Mood" = some declaration ∧ ∃ hfree : threads.Unnamed "W",
      (wrapper "Mood").kind.isObject ∧
      ∃ held,
        ((threads.insert (wrapper "Mood") hfree.absent).mend
          (wrapper "Mood") false
          (.object (holding "k" (.bool true)))).value = .object [("k", held)] ∧
        (held = (threads.mend declaration false (.bool true)).value ↔
          (false = false → declaration.kind.isObject = false →
            Json.bool true ≠ .null →
            declaration.unionAlternatives ≠ [])) := by
  have hunions : threads.UnionsOfLiterals := by decide +kernel
  have hfind : threads.find? "Mood" = some threads.declarations[1] := rfl
  have hfree : threads.Unnamed (wrapper "Mood").name := ⟨rfl, by decide +kernel⟩
  exact ⟨hunions, _, hfind, hfree, rfl,
    mend_eq_underKey_iff hunions hfind false hfree rfl rfl (.bool true)⟩

/-- A literal union without literals. -/
def bare : Schema where
  declarations :=
    [{ name := "R"
       kind := .literalUnion
       exported := false
       fields := [⟨"R", false, []⟩] }]
  distinct := by decide

theorem mend_ne_underKey_bare : bare.UnionsOfLiterals ∧ ∃ declaration,
    bare.find? "R" = some declaration ∧ ∃ hfree : bare.Unnamed "W",
      ((bare.insert (wrapper "R") hfree.absent).mend (wrapper "R") false
          (.object [("k", .number (.integer 5))])).value =
            .object [("k", .null)] ∧
        (bare.mend declaration false (.number (.integer 5))).value =
          .number (.integer 5) ∧
        (bare.mend declaration false (.number (.integer 5))).value ≠ .null :=
  ⟨by decide +kernel, bare.declarations[0], rfl, ⟨rfl, by decide +kernel⟩, rfl,
    rfl, Json.noConfusion⟩

end Schema

end ShapeMend
