import ShapeMend.Proofs.Mend.References

/-!
# How deep objects are nested

Every object that mending makes or goes into stands one level below another, and
its site is on the trail of all that is inside it.  So there are no more levels
than there are sites of objects, and one more for an object that ends a cycle or
stands for a name that is not declared.  It does not matter how often a key is
repeated: fields that come later put their defaults where they could have stood
anyway.
-/

namespace ShapeMend

namespace Json

mutual

/-- How many objects stand within one another, the outermost included. -/
def objectDepth : Json → Nat
  | .object members => membersDepth members + 1
  | .array items => itemsDepth items
  | _ => 0

def itemsDepth : List Json → Nat
  | [] => 0
  | item :: items => max item.objectDepth (itemsDepth items)

def membersDepth : List (String × Json) → Nat
  | [] => 0
  | (_, value) :: members => max value.objectDepth (membersDepth members)

end

variable {limit : Nat}

private theorem itemsDepth_le_iff {items : List Json} :
    itemsDepth items ≤ limit ↔ ∀ item ∈ items, item.objectDepth ≤ limit := by
  induction items with
  | nil => simp [itemsDepth]
  | cons item items ih => rw [itemsDepth, Nat.max_le, ih, List.forall_mem_cons]

private theorem objectDepth_array_map_le {change : Json → Json}
    {items : List Json}
    (hchange : ∀ item,
      item.objectDepth ≤ limit → (change item).objectDepth ≤ limit)
    (h : (array items).objectDepth ≤ limit) :
    (array (items.map change)).objectDepth ≤ limit := by
  rw [objectDepth, itemsDepth_le_iff] at h ⊢
  intro made hmade
  obtain ⟨item, hitem, rfl⟩ := List.mem_map.mp hmade
  exact hchange item (h item hitem)

theorem membersDepth_le_iff {members : Members} :
    membersDepth members ≤ limit ↔ ∀ member ∈ members,
      member.2.objectDepth ≤ limit := by
  induction members with
  | nil => simp [membersDepth]
  | cons member members ih =>
      obtain ⟨key, value⟩ := member
      rw [membersDepth, Nat.max_le, ih, List.forall_mem_cons]

private theorem objectDepth_le_of_lookup {members : Members}
    (h : membersDepth members ≤ limit) {key : String} {value : Json}
    (hvalue : Keyed.lookup key members = some value) :
    value.objectDepth ≤ limit :=
  membersDepth_le_iff.mp h _ (Keyed.mem_of_lookup hvalue)

private theorem membersDepth_put_le {members : Members}
    (h : membersDepth members ≤ limit) (key : String) {value : Json}
    (hvalue : value.objectDepth ≤ limit) :
    membersDepth (Keyed.put key value members) ≤ limit := by
  rw [membersDepth_le_iff] at h ⊢
  intro member hmember
  rcases Keyed.eq_or_mem_of_mem_put hmember with rfl | hold
  · exact hvalue
  · exact h member hold

private theorem objectDepth_le_of_isScalar {value : Json} (h : value.isScalar)
    (limit : Nat) : value.objectDepth ≤ limit := by
  cases value <;> simp_all [isScalar, objectDepth]

end Json

open Json

/-! ## The sites of objects -/

mutual

def Shape.inlineSites (owner : String) (location : List Nat) : Shape → List Site
  | .inline fields =>
      .inline owner location :: fieldSites owner location 0 fields
  | _ => []

def fieldSites (owner : String) (location : List Nat) (index : Nat) :
    List (FieldOf Shape) → List Site
  | [] => []
  | ⟨_, _, alternatives⟩ :: fields =>
    alternativeSites owner (index :: location) 0 alternatives ++
      fieldSites owner location (index + 1) fields

def alternativeSites (owner : String) (location : List Nat) (index : Nat) :
    List (AlternativeOf Shape) → List Site
  | [] => []
  | ⟨shape, _⟩ :: alternatives =>
    shape.inlineSites owner (index :: location) ++
      alternativeSites owner location (index + 1) alternatives

end

mutual

theorem Shape.length_inlineSites (owner : String) (location : List Nat)
    (shape : Shape) :
    (shape.inlineSites owner location).length = shape.fieldLists.length := by
  match shape with
  | .inline fields =>
      rw [Shape.inlineSites, Shape.fieldLists, List.length_cons,
        List.length_cons, length_fieldSites owner location 0 fields]
  | .primitive _ | .literal _ | .reference _ => rfl

private theorem length_fieldSites (owner : String) (location : List Nat)
    (index : Nat) (fields : List (FieldOf Shape)) :
    (fieldSites owner location index fields).length =
      (nestedLists fields).length := by
  match fields with
  | [] => rfl
  | ⟨_, _, alternatives⟩ :: fields =>
      rw [fieldSites, nestedLists, List.length_append, List.length_append,
        length_alternativeSites owner (index :: location) 0 alternatives,
        length_fieldSites owner location (index + 1) fields]

theorem length_alternativeSites (owner : String) (location : List Nat)
    (index : Nat) (alternatives : List (AlternativeOf Shape)) :
    (alternativeSites owner location index alternatives).length =
      (alternativeLists alternatives).length := by
  match alternatives with
  | [] => rfl
  | ⟨shape, _⟩ :: alternatives =>
      rw [alternativeSites, alternativeLists, List.length_append,
        List.length_append, Shape.length_inlineSites owner (index :: location)
        shape, length_alternativeSites owner location (index + 1) alternatives]

end

namespace Schema

/-- The sites of all objects: of the declarations of objects, and of the objects
written out at any depth in a declaration. -/
def objectSites (schema : Schema) : List Site :=
  (schema.declarations.filter (·.kind.isObject)).map (·.site) ++
    schema.declarations.flatMap fun declaration =>
      fieldSites declaration.name [] 0 declaration.fields

/-- The number of declarations of objects and of objects written out at any
depth. -/
def objectCount (schema : Schema) : Nat :=
  (schema.declarations.filter (·.kind.isObject)).length +
    (schema.declarations.flatMap
      fun declaration => nestedLists declaration.fields).length

private theorem length_objectSites (schema : Schema) :
    schema.objectSites.length = schema.objectCount := by
  rw [objectSites, objectCount, List.length_append, List.length_map,
    List.length_flatMap, List.length_flatMap]
  simp only [length_fieldSites]

def sitesLeft (schema : Schema) (trail : Trail) : Nat :=
  (schema.objectSites.filter (· ∉ trail)).length

variable {schema : Schema} {declaration : Declaration} {site : Site}
  {trail : Trail}

private theorem site_mem_objectSites (hmem : declaration ∈ schema.declarations)
    (hkind : declaration.kind.isObject) :
    declaration.site ∈ schema.objectSites :=
  List.mem_append_left
    _ (List.mem_map_of_mem (List.mem_filter.mpr ⟨hmem, hkind⟩))

theorem fieldSites_subset (hmem : declaration ∈ schema.declarations) :
    fieldSites declaration.name [] 0 declaration.fields ⊆ schema.objectSites :=
  fun _ hsite =>
  List.mem_append_right _ (List.mem_flatMap.mpr ⟨declaration, hmem, hsite⟩)

private theorem sitesLeft_nil (schema : Schema) :
    schema.sitesLeft [] = schema.objectCount := by
  rw [sitesLeft, ← length_objectSites]
  simp

theorem sitesLeft_cons (schema : Schema) (site : Site) (trail : Trail) :
    schema.sitesLeft (site :: trail) =
      ((schema.objectSites.filter (· ∉ trail)).filter (· ≠ site)).length := by
  rw [sitesLeft, List.filter_filter]
  congr 2
  funext other
  simp

private theorem sitesLeft_cons_le (schema : Schema) (site : Site)
    (trail : Trail) :
    schema.sitesLeft (site :: trail) ≤ schema.sitesLeft trail := by
  rw [sitesLeft_cons]
  exact List.length_filter_le _ _

private theorem sitesLeft_cons_lt (hsite : site ∈ schema.objectSites)
    (hnew : site ∉ trail) :
    schema.sitesLeft (site :: trail) < schema.sitesLeft trail := by
  rw [sitesLeft_cons, sitesLeft, List.length_filter_lt_length_iff_exists]
  exact ⟨site, List.mem_filter.mpr ⟨hsite, by simpa using hnew⟩, by simp⟩

end Schema

/-! ## Staying below a limit -/

def KeepsDepth (limit : Nat) (change : Json → Option Json) : Prop :=
  ∀ value other, value.objectDepth ≤ limit → change value = some other →
    other.objectDepth ≤ limit

private theorem KeepsDepth.tested (limit : Nat) (test : Json → Prop)
    [DecidablePred test] :
    KeepsDepth limit fun value => if test value then some value else none := by
  intro value other h hother
  rw [Option.ite_none_right_eq_some] at hother
  exact Option.some.inj hother.2 ▸ h

/-- Nothing at a reference goes deeper than a limit that leaves room for the
sites that are not on the trail and for one object more. -/
structure References.Shallow (schema : Schema) (references : References) :
    Prop where
  enter : references.enter = .tracked
  accept : ∀ {limit : Nat} {trail : Trail},
    schema.sitesLeft trail < limit → ∀ name : String,
    KeepsDepth limit fun value => (references.accept trail name value).value
  element : ∀ {limit : Nat} {trail : Trail},
    schema.sitesLeft trail < limit → ∀ (name : String) {item : Json},
    item.objectDepth ≤ limit →
      (references.element trail name item).value.objectDepth ≤ limit
  fallback : ∀ {limit : Nat} {trail : Trail},
    schema.sitesLeft trail < limit → ∀ name : String,
    (references.fallback trail name).value.objectDepth ≤ limit

namespace Mend

variable {schema : Schema} {references : References}

/-- An object takes one level and its site leaves one fewer, whatever the room
for its members is. -/
theorem objectDepth_object_le {limit : Nat} {trail : Trail} {site : Site}
    {change : Trail → Members → Logged Members}
    (hsite : site ∈ schema.objectSites)
    (hlimit : schema.sitesLeft trail < limit)
    (hchange : ∀ {limit : Nat} {members : Members},
      schema.sitesLeft (site :: trail) < limit → membersDepth members ≤ limit →
      membersDepth (change (site :: trail) members).value ≤ limit)
    {value : Json} (h : value.objectDepth ≤ limit) :
    (object .tracked trail site change value).value.objectDepth ≤ limit := by
  by_cases hobject : value.isObject
  · obtain ⟨members, rfl⟩ : ∃ members, value = .object members := by
      cases value <;> simp_all [isObject]
    rw [value_object_members]
    split
    · exact h
    · next hnew =>
        obtain ⟨room, rfl⟩ :=
          Nat.exists_eq_add_one_of_ne_zero (Nat.ne_zero_of_lt hlimit)
        have hless := Schema.sitesLeft_cons_lt hsite hnew
        have hmembers : membersDepth members ≤ room := Nat.le_of_succ_le_succ h
        exact Nat.succ_le_succ
          (hchange (Nat.lt_of_lt_of_le hless (Nat.le_of_lt_succ hlimit))
            hmembers)
  · rwa [value_object_of_isObject_eq_false _ _ _ (by simpa using hobject)]

mutual

/-- The three ways in which a shape deals with a value, by the same induction.
-/
theorem shape_shallow (hreferences : references.Shallow schema) (shape : Shape)
    (owner : String) (location : List Nat) (trail : Trail) (limit : Nat)
    (hsites : shape.inlineSites owner location ⊆ schema.objectSites)
    (hlimit : schema.sitesLeft trail < limit) :
    KeepsDepth limit
      (fun value =>
        (accept references owner location trail shape value).value) ∧
      KeepsDepth limit
        (fun value =>
          (acceptList references owner location trail shape value).value) ∧
      (fallback references owner location trail shape).value.objectDepth ≤
        limit := by
  match shape with
  | .primitive primitive =>
      exact ⟨.tested limit fun value => primitive.admits value.kind,
        .tested limit (·.kind = .array),
        objectDepth_le_of_isScalar primitive.isScalar_fallback limit⟩
  | .literal literal =>
      exact ⟨.tested limit fun value => literal.accepts value,
        .tested limit (·.kind = .array),
        objectDepth_le_of_isScalar literal.isScalar_toJson limit⟩
  | .reference name =>
      refine ⟨hreferences.accept hlimit name, fun value other h hother => ?_,
        hreferences.fallback hlimit name⟩
      cases value with
      | array items =>
          obtain rfl := Option.some.inj hother
          rw [Logged.value_mapM]
          exact objectDepth_array_map_le
            (fun item => hreferences.element hlimit name) h
      | _ =>
          simp only [acceptList, Logged.value_pure,
            Option.ite_none_right_eq_some] at hother
          exact Option.some.inj hother.2 ▸ h
  | .inline fields =>
      have hinside : .inline owner location ∈ schema.objectSites ∧
          fieldSites owner location 0 fields ⊆ schema.objectSites :=
            List.cons_subset.mp hsites
      have hobject {value : Json} (h : value.objectDepth ≤ limit) :
          (object references.enter trail (.inline owner location)
            (fun trail members =>
            Mend.fields references owner location trail 0 fields members)
              value).value.objectDepth ≤
              limit := by
        rw [hreferences.enter]
        exact objectDepth_object_le hinside.1 hlimit
          (fun hroom => fields_shallow hreferences fields owner location _ 0
            hinside.2 hroom) h
      refine ⟨fun value other h hother => ?_,
        fun value other h hother => ?_, ?_⟩
      · exact Option.some.inj hother ▸ hobject h
      · cases value with
        | array items =>
            obtain rfl := Option.some.inj hother
            rw [Logged.value_mapM]
            exact objectDepth_array_map_le (fun item => hobject) h
        | _ => exact Option.some.inj hother ▸ h
      · exact hobject (Nat.succ_le_of_lt (Nat.zero_lt_of_lt hlimit))

private theorem fields_shallow (hreferences : references.Shallow schema)
    (fields : List (FieldOf Shape)) (owner : String) (location : List Nat)
    (trail : Trail) (index : Nat)
    (hsites : fieldSites owner location index fields ⊆ schema.objectSites)
    {limit : Nat} (hlimit : schema.sitesLeft trail < limit) {members : Members}
    (h : membersDepth members ≤ limit) :
    membersDepth
      (Mend.fields references owner location trail index fields members).value ≤
      limit := by
  match fields with
  | [] => exact h
  | ⟨key, optional, alternatives⟩ :: rest =>
      rw [fieldSites, List.append_subset] at hsites
      obtain ⟨haccepted, hfallback⟩ :=
        alternatives_shallow hreferences alternatives owner (index :: location)
          trail 0 limit hsites.1 hlimit
      have hrest {members : Members} (h : membersDepth members ≤ limit) :=
        fields_shallow hreferences rest owner location trail (index + 1)
          hsites.2 hlimit h
      rw [value_fields, slots, Slots.fill]
      cases hfill :
        (slot references owner (index :: location) trail alternatives).fill
          (Keyed.lookup key members) with
      | none =>
          rw [← value_fields]
          exact hrest h
      | some value =>
          change membersDepth
            (Slots.fill _ (Keyed.put key value members)) ≤ limit
          rw [← value_fields]
          refine hrest (membersDepth_put_le h key ?_)
          rcases Slot.of_fill_eq_some hfill
            with ⟨old, hold, haccept⟩ | hdefault | hkept
          · exact haccepted old value (objectDepth_le_of_lookup h hold) haccept
          · exact hfallback value hdefault
          · exact objectDepth_le_of_lookup h hkept

/-- So do the alternatives of a field with the value under its key, and with its
default. -/
private theorem alternatives_shallow (hreferences : references.Shallow schema)
    (alternatives : List (AlternativeOf Shape)) (owner : String)
    (location : List Nat) (trail : Trail) (index limit : Nat)
    (hsites : alternativeSites owner location index alternatives ⊆
      schema.objectSites)
    (hlimit : schema.sitesLeft trail < limit) :
    KeepsDepth limit (fun value =>
        (firstAccepted references owner location trail index alternatives
          value).value) ∧
      ∀ default,
        (lastFallback references owner location trail index
          alternatives).value = some default →
        default.objectDepth ≤ limit := by
  match alternatives with
  | [] =>
      exact ⟨fun _ _ _ hother => (by cases hother), fun _ hdefault => by
        cases hdefault⟩
  | ⟨shape, isArray⟩ :: rest =>
      rw [alternativeSites, List.append_subset] at hsites
      obtain ⟨hone, hlist, hdefault⟩ :=
        shape_shallow hreferences shape owner (index :: location) trail limit
          hsites.1 hlimit
      obtain ⟨hlater, hlast⟩ :=
        alternatives_shallow hreferences rest owner location trail (index + 1)
          limit hsites.2 hlimit
      refine ⟨fun value other h hother => ?_, fun default hlastDefault => ?_⟩
      · dsimp only at hother
        rw [value_firstAccepted_cons, Option.or_eq_some_iff] at hother
        rcases hother with hreceived | ⟨-, hothers⟩
        · cases isArray with
          | true => exact hlist value other h hreceived
          | false => exact hone value other h hreceived
        · exact hlater value other h hothers
      · cases rest with
        | nil =>
            obtain rfl :=
              Option.some.inj
                ((value_lastFallback_concat references owner location trail
                  index [] ⟨shape, isArray⟩).symm.trans hlastDefault)
            cases isArray with
            | true => exact Nat.zero_le limit
            | false => exact hdefault
        | cons next rest => exact hlast default hlastDefault

end

end Mend

/-! ## References -/

section

variable {schema : Schema} {references : References} {declaration : Declaration}
  {trail : Trail} {limit : Nat}

theorem Declaration.visit_shallow (hreferences : references.Shallow schema)
    (hmem : declaration ∈ schema.declarations)
    (hkind : declaration.kind.isObject)
    (hlimit : schema.sitesLeft trail < limit) {value : Json}
    (h : value.objectDepth ≤ limit) :
    (Mend.object .tracked trail declaration.site (declaration.change references)
      value).value.objectDepth ≤ limit :=
  Mend.objectDepth_object_le (Schema.site_mem_objectSites hmem hkind) hlimit
    (fun hroom =>
      Mend.fields_shallow hreferences declaration.fields declaration.name [] _ 0
      (Schema.fieldSites_subset hmem) hroom) h

private theorem Declaration.union_shallow
    (hreferences : references.Shallow schema)
    (hmem : declaration ∈ schema.declarations)
    (hlimit : schema.sitesLeft trail < limit) :
    KeepsDepth limit
      (fun value => (declaration.acceptUnion references trail value).value) ∧
      ∀ default,
        (declaration.unionFallback references trail).value = some default →
        default.objectDepth ≤ limit := by
  refine Mend.alternatives_shallow hreferences declaration.unionAlternatives
    declaration.name unionLocation trail 0
    limit (fun site hsite => Schema.fieldSites_subset hmem ?_) hlimit
  unfold unionAlternatives at hsite
  cases hfields : declaration.fields with
  | nil => simp [hfields, alternativeSites] at hsite
  | cons field fields =>
      rw [hfields] at hsite
      exact List.mem_append_left _ hsite

private theorem References.Shallow.visit {inner : Option References}
    (hinner : ∀ below ∈ inner, below.Shallow schema)
    (hmem : declaration ∈ schema.declarations)
    (hkind : declaration.kind.isObject)
    (hlimit : schema.sitesLeft trail < limit) {value : Json}
    (h : value.objectDepth ≤ limit) :
    (References.visit inner trail declaration value).objectDepth ≤ limit := by
  unfold References.visit
  cases hwithin : within inner trail declaration.site with
  | none => exact h
  | some below =>
      exact Declaration.visit_shallow (hinner below (of_within hwithin).2) hmem
        hkind hlimit h

/-- What is entered through a reference keeps within the limit if that holds of
what is entered from there. -/
private theorem References.Shallow.ofSchema {inner : Option References}
    (hinner : ∀ below ∈ inner, below.Shallow schema) :
    (ofSchema .tracked schema inner).Shallow schema where
  enter := rfl
  accept {limit trail} hlimit name value other h hother := by
    dsimp only at hother
    cases hfind : schema.find? name with
    | none =>
        rw [accept_undeclared inner trail hfind] at hother
        exact Option.some.inj hother ▸ h
    | some declaration =>
        have hmem := (Schema.mem_of_find?_eq_some hfind).1
        cases hkind : declaration.kind.isObject with
        | true =>
            rw [accept_object inner trail hfind hkind] at hother
            exact Option.some.inj hother ▸
              Shallow.visit hinner hmem hkind hlimit h
        | false =>
            simp only [References.ofSchema, hfind, hkind, Bool.false_eq_true,
              if_false] at hother
            cases hwithin : within inner trail declaration.site with
            | none => simp [hwithin] at hother
            | some below =>
                rw [hwithin] at hother
                have hless :=
                  Nat.lt_of_le_of_lt
                    (schema.sitesLeft_cons_le declaration.site trail) hlimit
                exact (Declaration.union_shallow
                  (hinner below (of_within hwithin).2) hmem hless).1 value other
                  h hother
  element {limit trail} hlimit name item h := by
    cases hfind : schema.find? name with
    | none => rwa [element_undeclared inner trail hfind]
    | some declaration =>
        cases hkind : declaration.kind.isObject with
        | true =>
            rw [element_object inner trail hfind hkind]
            exact Shallow.visit hinner (Schema.mem_of_find?_eq_some hfind).1
              hkind hlimit h
        | false => rwa [element_union inner trail hfind hkind]
  fallback {limit trail} hlimit name := by
    have hroom : 1 ≤ limit := Nat.succ_le_of_lt (Nat.zero_lt_of_lt hlimit)
    cases hfind : schema.find? name with
    | none => rwa [fallback_undeclared inner trail hfind]
    | some declaration =>
        have hmem := (Schema.mem_of_find?_eq_some hfind).1
        cases hkind : declaration.kind.isObject with
        | true =>
            rw [fallback_object inner trail hfind hkind]
            exact Shallow.visit hinner hmem hkind hlimit hroom
        | false =>
            simp only [References.ofSchema, hfind, hkind, Bool.false_eq_true,
              if_false]
            cases hwithin : within inner trail declaration.site with
            | none => exact Nat.zero_le limit
            | some below =>
                have hless :=
                  Nat.lt_of_le_of_lt
                    (schema.sitesLeft_cons_le declaration.site trail) hlimit
                have hdefault :=
                  (Declaration.union_shallow
                    (hinner below (of_within hwithin).2) hmem hless).2
                simp only [Logged.value_bind, Logged.value_pure]
                cases hlast :
                  (declaration.unionFallback below
                    (declaration.site :: trail)).value with
                | none => exact Nat.zero_le limit
                | some default => exact hdefault default hlast

private theorem References.shallow (schema : Schema) (depth : Nat) :
    (schema.references depth).Shallow schema := by
  induction depth with
  | zero => exact .ofSchema fun _ hnone => by cases hnone
  | succ depth ih => exact .ofSchema fun _ hbelow => Option.some.inj hbelow ▸ ih

end

namespace Schema

variable {schema : Schema} {declaration : Declaration}

/-- A missing object is mended as an empty one, and however references lead in
circles, no more objects stand within one another than there are sites of
objects, and one. -/
theorem mend_null_and_objectDepth_le {name : String}
    (hfind : schema.find? name = some declaration)
    (hkind : declaration.kind.isObject) :
    schema.mend declaration false .null =
      schema.mend declaration false (.object []) ∧
      (schema.mend declaration false .null).value.objectDepth ≤
        schema.objectCount + 1 := by
  have hmem := (mem_of_find?_eq_some hfind).1
  have hempty : schema.mend declaration false .null =
      schema.mend declaration false (.object []) := by
    simp [mend, mendOne, References.mendOne, hkind, Mend.fresh]
  refine ⟨hempty, ?_⟩
  rw [hempty]
  simp only [mend, mendOne, References.mendOne, hkind, Bool.false_eq_true,
    if_false, if_true]
  refine Declaration.visit_shallow (References.shallow schema _) hmem hkind
    ?_ (Nat.succ_le_succ (Nat.zero_le _))
  rw [sitesLeft_nil]
  exact Nat.lt_succ_self _

/-- Two declarations that lead to each other, one of them through an object that
is written out, with a repeated key and a name that is not declared. -/
def circles : Schema where
  declarations := [
    { name := "Owner"
      kind := .interface
      exported := true
      fields := [
        ⟨"item", false,
          [⟨.primitive .null, false⟩, ⟨.reference "Item", false⟩]⟩,
        ⟨"item", false, [⟨.reference "Mark", false⟩]⟩] },
    { name := "Item"
      kind := .objectAlias
      exported := false
      fields :=
        [⟨"held", false, [⟨.inline [⟨"by", true, [⟨.reference "Owner", false⟩]⟩,
        ⟨"mark", false, [⟨.reference "Mark", false⟩]⟩], false⟩]⟩] }]
  distinct := by decide

theorem mend_null_and_objectDepth_le_circles : ∃ declaration,
    circles.find? "Owner" = some declaration ∧ declaration.kind.isObject ∧
      circles.mend declaration false .null =
        circles.mend declaration false (.object []) ∧
      (circles.mend declaration false .null).value.objectDepth ≤
        circles.objectCount + 1 ∧
      (circles.mend declaration false .null).value.objectDepth = 4 ∧
        circles.objectCount = 3 := by
  have hfind : circles.find? "Owner" = some circles.declarations[0] := rfl
  obtain ⟨hempty, hdepth⟩ := mend_null_and_objectDepth_le hfind rfl
  exact ⟨_, hfind, rfl, hempty, hdepth, by decide +kernel, by decide +kernel⟩

end Schema

end ShapeMend
