import ShapeMend.Proofs.Mend.Completeness

/-!
# What mending leaves as it is

An object that is mended keeps its keys in their order, and after them come the
keys of the fields that it lacks. Only members under the keys of fields change.
Where one is accepted as an object, or as a list of objects, nothing changes but
the objects in it, each by the same law; those for a shape that is being mended
already stay.
-/

namespace ShapeMend

open Json

/-! ## Which alternatives accept -/

/-- The alternative accepts the value when it is reached with the trail.  A
literal union accepts what one of its own alternatives does, unless it is on the
trail. -/
inductive Schema.Accepts (schema : Schema) : Trail → Alternative → Json → Prop
  | object {trail : Trail} {alternative : Alternative} {value : Json}
      (hshape : schema.defaultsToObject alternative.shape) :
      Accepts schema trail alternative value
  | list {trail : Trail} {shape : Shape} {items : List Json} :
      Accepts schema trail ⟨shape, true⟩ (.array items)
  | primitive {trail : Trail} {primitive : Primitive} {value : Json}
      (h : primitive.admits value.kind) :
      Accepts schema trail ⟨.primitive primitive, false⟩ value
  | literal {trail : Trail} {literal : Literal} {value : Json}
      (h : literal.accepts value) :
      Accepts schema trail ⟨.literal literal, false⟩ value
  | union {trail : Trail} {name : String} {declaration : Declaration}
      {alternative : Alternative} {value : Json}
      (hfind : schema.find? name = some declaration)
      (hkind : declaration.kind.isObject = false)
      (hsite : declaration.site ∉ trail)
      (hmem : alternative ∈ declaration.unionAlternatives)
      (h : Accepts schema (declaration.site :: trail) alternative value) :
      Accepts schema trail ⟨.reference name, false⟩ value

namespace Mend

variable (references : References) (owner : String) (location : List Nat)
  (trail : Trail)

private theorem firstAccepted_eq_some (index : Nat) {place : Nat}
    {alternatives : List Alternative} {alternative : Alternative}
    (hplace : alternatives[place]? = some alternative) {value other : Json}
    (hearlier : ∀ earlier ∈ alternatives.take place, ∀ location,
      receive references owner location trail earlier value = none)
    (h : receive references owner ((index + place) :: location) trail
      alternative value = some other) :
    (firstAccepted references owner location trail index alternatives
      value).value = some other := by
  induction alternatives generalizing index place with
  | nil => simp at hplace
  | cons first rest ih =>
      rw [value_firstAccepted_cons]
      cases place with
      | zero =>
          obtain rfl : first = alternative := by simpa using hplace
          rw [Nat.add_zero] at h
          rw [h, Option.some_or]
      | succ place =>
          rw [List.take_succ_cons, List.forall_mem_cons] at hearlier
          rw [hearlier.1, Option.none_or]
          refine ih (index + 1) (by simpa using hplace) hearlier.2 ?_
          rwa [Nat.add_assoc, Nat.add_comm 1]

private theorem isSome_firstAccepted_iff {index : Nat}
    {alternatives : List Alternative} {value : Json} :
    (firstAccepted references owner location trail index alternatives
      value).value.isSome ↔
      ∃ (place : Nat) (alternative : Alternative),
        alternatives[place]? = some alternative ∧
        (receive references owner ((index + place) :: location) trail
          alternative value).isSome := by
  constructor
  · intro h
    obtain ⟨other, hother⟩ := Option.isSome_iff_exists.mp h
    obtain ⟨place, alternative, hplace, hreceive⟩ :=
      exists_of_firstAccepted _ _ _ _ hother
    exact ⟨place, alternative, hplace, Option.isSome_of_eq_some hreceive⟩
  · rintro ⟨place, alternative, hplace, h⟩
    induction alternatives generalizing index place with
    | nil => simp at hplace
    | cons first rest ih =>
        rw [value_firstAccepted_cons, Option.isSome_or, Bool.or_eq_true]
        cases place with
        | zero =>
            obtain rfl : first = alternative := by simpa using hplace
            exact .inl h
        | succ place =>
            refine .inr (ih place (by simpa using hplace) ?_)
            rwa [Nat.add_assoc, Nat.add_comm 1]

end Mend

namespace Schema

variable {schema : Schema}

private theorem isSome_receive_list_iff {depth : Nat} {owner : String}
    {location : List Nat} {trail : Trail} {shape : Shape} {value : Json}
    (hshape : schema.defaultsToObject shape = false) :
    (Mend.receive (schema.references depth) owner location trail ⟨shape, true⟩
      value).isSome ↔
      schema.Accepts trail ⟨shape, true⟩ value := by
  have hreceive :
      (Mend.receive (schema.references depth) owner location trail ⟨shape, true⟩
        value).isSome ↔
      value.kind = .array := by
    cases shape <;> cases value <;>
      simp_all [Mend.receive, Mend.acceptList, Json.kind, defaultsToObject,
        schema.references_eq, References.ofSchema]
  rw [hreceive]
  constructor
  · intro h
    cases value with
    | array items => exact .list
    | _ => cases h
  · intro h
    cases h with
    | object h => simp [hshape] at h
    | list => rfl

section Below

/-! One level of references: it is known how the alternatives of a literal union
accept if it can be followed. -/

variable {depth : Nat} {trail : Trail}
  (hbelow : ∀ declaration ∈ schema.declarations,
    declaration.site ∉ trail → ∃ below, depth = below + 1 ∧
    ∀ owner location alternative value,
      (Mend.receive (schema.references below) owner location
        (declaration.site :: trail) alternative value).isSome ↔
        schema.Accepts (declaration.site :: trail) alternative value)
include hbelow

private theorem isSome_receive_union_iff (owner : String) (location : List Nat)
    {name : String} (hshape : schema.defaultsToObject (.reference name) = false)
    {value : Json} :
    (Mend.receive (schema.references depth) owner location trail
      ⟨.reference name, false⟩ value).isSome ↔
      schema.Accepts trail ⟨.reference name, false⟩ value := by
  cases hfind : schema.find? name with
  | none => simp [defaultsToObject, hfind] at hshape
  | some declaration =>
      have hkind : declaration.kind.isObject = false := by
        simpa [defaultsToObject, hfind] using hshape
      by_cases hsite : declaration.site ∈ trail
      · refine iff_of_false ?_ fun h => ?_
        · simp [Mend.receive, Mend.accept, schema.references_eq depth,
            References.ofSchema, References.within, hfind, hkind, hsite]
        · cases h with
          | object h => cases hshape.symm.trans h
          | union hother _ hnew _ _ =>
              obtain rfl := Option.some.inj (hfind.symm.trans hother)
              exact hnew hsite
      · obtain ⟨below, rfl, hinside⟩ :=
          hbelow declaration (mem_of_find?_eq_some hfind).1 hsite
        have hreceive : Mend.receive (schema.references (below + 1)) owner
            location trail ⟨.reference name, false⟩
            value =
              (declaration.acceptUnion (schema.references below)
                (declaration.site :: trail) value).value := by
          simp [Mend.receive, Mend.accept, schema.references_eq (below + 1),
            Schema.below, References.ofSchema, References.within, hfind,
            hkind, hsite]
        rw [hreceive, Declaration.acceptUnion, Mend.isSome_firstAccepted_iff]
        constructor
        · rintro ⟨place, alternative, hplace, h⟩
          exact .union hfind hkind hsite (List.mem_of_getElem? hplace)
            ((hinside _ _ _ _).mp h)
        · intro h
          cases h with
          | object h => cases hshape.symm.trans h
          | union hother _ _ hmem h =>
              obtain rfl := Option.some.inj (hfind.symm.trans hother)
              obtain ⟨place, hplace⟩ := List.mem_iff_getElem?.mp hmem
              exact ⟨place, _, hplace, (hinside _ _ _ _).mpr h⟩

private theorem isSome_receive_iff_of_below (owner : String)
    (location : List Nat) (alternative : Alternative) (value : Json) :
    (Mend.receive (schema.references depth) owner location trail alternative
      value).isSome ↔
      schema.Accepts trail alternative value := by
  cases hshape : schema.defaultsToObject alternative.shape with
  | true =>
      have hreceive :=
        Frame.receive_of_defaultsToObject ⟨depth, owner, [], trail, []⟩ location
          hshape value
      exact iff_of_true (Option.isSome_of_eq_some hreceive) (.object hshape)
  | false =>
      obtain ⟨shape, isArray⟩ := alternative
      cases isArray with
      | true => exact isSome_receive_list_iff hshape
      | false =>
          cases shape with
          | primitive primitive =>
              constructor
              · intro h
                exact .primitive (by simpa [Mend.receive, Mend.accept] using h)
              · intro h
                cases h with
                | object h => cases h
                | primitive h => simpa [Mend.receive, Mend.accept] using h
          | literal literal =>
              constructor
              · intro h
                exact .literal (by simpa [Mend.receive, Mend.accept] using h)
              · intro h
                cases h with
                | object h => cases h
                | literal h => simpa [Mend.receive, Mend.accept] using h
          | inline fields => cases hshape
          | reference name =>
              exact isSome_receive_union_iff hbelow owner location hshape

end Below

/-- Alternatives accept as the schema says wherever all that is not on the trail
can still be followed. -/
private theorem isSome_receive_iff {depth : Nat} {owner : String}
    {location : List Nat} {trail : Trail}
    (hdepth : (schema.unvisited trail).length ≤ depth)
    {alternative : Alternative} {value : Json} :
    (Mend.receive (schema.references depth) owner location trail alternative
      value).isSome ↔
      schema.Accepts trail alternative value := by
  induction depth generalizing owner location trail alternative value with
  | zero =>
      refine isSome_receive_iff_of_below (fun declaration hmem hsite => ?_)
        owner location alternative value
      have hless := length_unvisited_lt hmem hsite
      omega
  | succ depth ih =>
      refine isSome_receive_iff_of_below (fun declaration hmem hsite => ?_)
        owner location alternative value
      have hless := length_unvisited_lt hmem hsite
      exact ⟨depth, rfl, fun _ _ _ _ => ih (by omega)⟩

end Schema

/-! ## The law of repair -/

/-- The keys of the fields that an object lacks and that have a default for it.
-/
def missingKeys (fields : List Field) (members : Members) : List String :=
  (fields.filter fun field => field.alternatives ≠ [] ∧ field.key ∉
    Keyed.keys members).map (·.key)

mutual

/-- An object before and after it is mended by fields. -/
inductive Mended (schema : Schema) : Spot → List Field → Members →
    Members → Prop
  | intro {spot : Spot} {fields : List Field} {before after : Members}
      (hkeys : Keyed.keys after = Keyed.keys before ++
      missingKeys fields before)
      (hothers : ∀ key,
      key ∉ fields.map
      (·.key) → Keyed.lookup key after = Keyed.lookup key before)
      (hkept : ∀ (index : Nat) (field : Field) (place : Nat)
      (alternative : Alternative) (value result : Json),
        fields[index]? = some field → field.alternatives[place]? =
          some alternative →
        schema.defaultsToObject alternative.shape →
        Keyed.lookup field.key before = some value →
          Keyed.lookup field.key after = some result →
        (∀ earlier ∈ field.alternatives.take place,
        ¬ schema.Accepts spot.trail earlier value) →
        Kept schema ((spot.inside index).inside place) alternative value
          result) :
      Mended schema spot fields before after

/-- A value before and after it is accepted by an alternative for objects. -/
inductive Kept (schema : Schema) : Spot → Alternative → Json → Json → Prop
  | list {spot : Spot} {shape : Shape} {items results : List Json}
      (hlength : results.length = items.length)
      (hitems : ∀ (index : Nat) (item result : Json),
      items[index]? = some item → results[index]? = some result →
        Visited schema spot shape item result) :
      Kept schema spot ⟨shape, true⟩ (.array items) (.array results)
  | noList {spot : Spot} {shape : Shape} {value : Json}
      (hvalue : value.kind ≠ .array) :
      Kept schema spot ⟨shape, true⟩ value value
  | one {spot : Spot} {shape : Shape} {value result : Json}
      (h : Visited schema spot shape value result) :
      Kept schema spot ⟨shape, false⟩ value result

/-- A value, or an element of a list, before and after it is visited under a
shape for objects.  What is no object stays, and so does an object for a shape
on the trail or for a name that is not declared. -/
inductive Visited (schema : Schema) : Spot → Shape → Json → Json → Prop
  | other {spot : Spot} {shape : Shape} {value : Json}
      (hvalue : value.isObject = false) :
      Visited schema spot shape value value
  | undeclared {spot : Spot} {name : String} {value : Json}
      (hfind : schema.find? name = none) :
      Visited schema spot (.reference name) value value
  | inlineAgain {spot : Spot} {fields : List Field} {value : Json}
      (h : spot.site ∈ spot.trail) :
      Visited schema spot (.inline fields) value value
  | inline {spot : Spot} {fields : List Field} {before after : Members}
      (hsite : spot.site ∉ spot.trail)
      (h : Mended schema spot.enter fields before after) :
      Visited schema spot (.inline fields) (.object before) (.object after)
  | declaredAgain {spot : Spot} {name : String} {declaration : Declaration}
      {value : Json}
      (hfind : schema.find? name = some declaration)
      (h : declaration.site ∈ spot.trail) :
      Visited schema spot (.reference name) value value
  | declared {spot : Spot} {name : String} {declaration : Declaration}
      {before after : Members}
      (hfind : schema.find? name = some declaration)
      (hsite : declaration.site ∉ spot.trail)
      (h : Mended schema (spot.follow declaration) declaration.fields before
      after) :
      Visited schema spot (.reference name) (.object before) (.object after)

end

/-! ## Fields at work -/

private theorem Mend.keys_filter_slots (references : References)
    (owner : String) (location : List Nat) (trail : Trail) (index : Nat)
    (fields : List Field) (members : Members) :
    Keyed.keys
      ((slots references owner location trail index fields).filter fun entry =>
      entry.2.fallback.isSome ∧ entry.1 ∉ Keyed.keys members) =
        missingKeys fields members := by
  induction fields generalizing index with
  | nil => rfl
  | cons field rest ih =>
      have hdefault :
          (slot references owner (index :: location) trail
            field.alternatives).fallback.isSome ↔
          field.alternatives ≠ [] := by
        rcases List.eq_nil_or_concat field.alternatives
          with hnil | ⟨earlier, last, hconcat⟩
        · simp [slot, hnil]
        · simp [slot, hconcat, value_lastFallback_concat]
      simp only [slots, missingKeys, List.filter_cons, hdefault,
        decide_eq_true_eq] at ih ⊢
      split
      · simp only [Keyed.keys_cons, List.map_cons, ih]
      · exact ih (index + 1)

namespace Frame

variable {schema : Schema}

def Mends (schema : Schema) (frame : Frame) : Prop :=
  ∀ members, Mended schema frame.spot frame.fields members
    (Slots.fill (frame.slots schema) members)

section Inside

variable (frame : Frame) (location : List Nat) (hopen : frame.Open schema)
include hopen

private theorem visited_visit {shape : Shape}
    (hshape : schema.defaultsToObject shape)
    (hinside : ∀ inner,
      enter schema frame location shape = some inner → inner.Mends schema)
    (value : Json) :
    Visited schema (frame.spotAt location) shape value
      (Slots.visit (insideSlots schema (enter schema frame location shape))
        value) := by
  refine hopen.rel_visit location hshape _ (fun _ => .other) ?_ value
  intro members inside hentry henter
  cases hentry with
  | undeclared hfind => exact .undeclared hfind
  | inlineAgain h => exact .inlineAgain h
  | inline hsite hspot hfields =>
      exact .inline hsite (hspot ▸ hfields ▸ hinside _ henter members)
  | declaredAgain hfind _ h => exact .declaredAgain hfind h
  | declared hfind _ hsite hspot hfields =>
      exact .declared hfind hsite (hspot ▸ hfields ▸ hinside _ henter members)

private theorem kept_rework {alternative : Alternative}
    (hshape : schema.defaultsToObject alternative.shape)
    (hinside : ∀ inner,
      enter schema frame location alternative.shape = some inner →
      inner.Mends schema)
    (value : Json) :
    Kept schema (frame.spotAt location) alternative value
      (rework schema (inside schema frame location alternative) value) := by
  obtain ⟨shape, isArray⟩ := alternative
  cases isArray with
  | false =>
      rw [rework_inside_one]
      exact .one (visited_visit frame location hopen hshape hinside value)
  | true =>
      cases value with
      | array items =>
          refine .list (List.length_map ..)
            fun index item result hitem hresult => ?_
          rw [List.getElem?_map, hitem] at hresult
          obtain rfl := Option.some.inj hresult
          exact visited_visit frame location hopen hshape hinside item
      | _ => exact .noList (by simp [Json.kind])

end Inside

private theorem mends_of_inside (hdistinct : schema.DistinctKeys)
    {frame : Frame} (hwithin : frame.Within schema) (hopen : frame.Open schema)
    (hinside : ∀ field ∈ frame.fields, ∀ alternative ∈ field.alternatives,
      ∀ location inner, enter schema frame location alternative.shape =
      some inner → inner.Mends schema) : frame.Mends schema := by
  intro members
  have hkeys := nodup_keys_slots frame hdistinct hwithin
  refine .intro ?keys (fun key hkey => ?others) ?kept
  case keys => rw [Slots.keys_fill hkeys, slots, Mend.keys_filter_slots]
  case others =>
    rw [Slots.lookup_fill, Slots.under_of_not_mem]
    rwa [← Context.slots_context, keys_slots]
  case kept =>
    intro index field place alternative value result hindex hplace hshape
      hbefore hafter hearlier
    have halternative := List.mem_of_getElem? hplace
    have hslot :=
      Mend.mem_slots (schema.references frame.depth) frame.owner frame.location
        frame.trail 0 hindex
    rw [Nat.zero_add] at hslot
    have hrefused : ∀ earlier ∈ field.alternatives.take place, ∀ location,
        receive schema frame location earlier value = none := by
      intro earlier hmem location
      rw [← Option.not_isSome_iff_eq_none,
        Schema.isSome_receive_iff hopen.length_le]
      exact hearlier earlier hmem
    -- The alternative at the place is the first to accept, so it alone decides
    -- what stands under the key.
    have hreceive :=
      receive_of_defaultsToObject frame (place :: index :: frame.location)
        hshape value
    have haccept :=
      Mend.firstAccepted_eq_some (schema.references frame.depth) frame.owner
      (index :: frame.location) frame.trail 0 hplace hrefused
        (by rwa [Nat.zero_add])
    rw [Slots.lookup_fill, Slots.under_of_mem hkeys hslot, hbefore] at hafter
    simp only [Slot.fill, Mend.slot, Option.bind_some, haccept, Option.some_or,
      Option.some.injEq] at hafter
    subst hafter
    exact kept_rework frame _ hopen hshape
      (hinside field (List.mem_of_getElem? hindex) alternative halternative _)
      value

private theorem mends (hdistinct : schema.DistinctKeys) (frame : Frame)
    (hwithin : frame.Within schema) (hopen : frame.Open schema) :
    frame.Mends schema :=
  of_inside_open (mends_of_inside hdistinct) hwithin hopen

end Frame

namespace Schema

variable {schema : Schema} {declaration : Declaration}

/-- Under distinct keys an object is mended to an object by the law of repair.
-/
theorem mended_mend (hdistinct : schema.DistinctKeys) {name : String}
    (hfind : schema.find? name = some declaration)
    (hkind : declaration.kind.isObject) (members : Members) :
    ∃ result,
      (schema.mend declaration false (.object members)).value = .object result ∧
      Mended schema ⟨declaration.name, [], [declaration.site]⟩
        declaration.fields members result := by
  have hmends := Frame.mends hdistinct _
    (Frame.within_ofDeclaration (mem_of_find?_eq_some hfind).1
      schema.declarations.length [])
    (open_ofDeclaration hfind hkind)
  refine ⟨_, ?_, hmends members⟩
  simp only [mend, Bool.false_eq_true, if_false]
  rw [value_mendOne_object hkind _ (by simp), Declaration.context,
    Context.slots_context, Slots.visit]

theorem mended_mend_threads : threads.DistinctKeys ∧ ∃ declaration,
    threads.find? "Thread" = some declaration ∧ declaration.kind.isObject ∧
      ∃ result,
        (threads.mend declaration false (.object
          [("replies", .array [.null, .object []]), ("seen", .bool true),
          ("first", .object [])])).value = .object result ∧
        Mended threads ⟨declaration.name, [], [declaration.site]⟩
          declaration.fields
          [("replies", .array [.null, .object []]), ("seen", .bool true),
            ("first", .object [])] result :=
  ⟨by decide +kernel, threads.declarations[0], rfl, rfl,
    mended_mend (by decide +kernel) (show threads.find? "Thread" =
      some threads.declarations[0] from rfl) rfl _⟩

end Schema

end ShapeMend
