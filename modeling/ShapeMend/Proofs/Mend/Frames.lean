import ShapeMend.Proofs.Mend.References

/-!
# Frames

A frame is a list of fields at work on an object, together with the place where
the fields are written out and the trail that led there.  A value that an
alternative accepts is left as it is but for the objects in it, and these are
visited in the frame of the alternative.
-/

namespace ShapeMend

open Json

structure Frame where
  /-- The number of declarations that references are still followed through. -/
  depth : Nat
  owner : String
  location : List Nat
  trail : Trail
  fields : List Field

def Schema.below (schema : Schema) : Nat → Option References
  | 0 => none
  | depth + 1 => some (schema.references depth)

theorem Schema.references_eq (schema : Schema) (depth : Nat) :
    schema.references depth =
      .ofSchema .tracked schema (schema.below depth) := by
  cases depth <;> rfl

namespace Frame

variable (schema : Schema)

/-- The frame of a declaration that is entered from a trail. -/
def ofDeclaration (declaration : Declaration) (depth : Nat)
    (trail : Trail) : Frame where
  depth := depth
  owner := declaration.name
  location := []
  trail := declaration.site :: trail
  fields := declaration.fields

def slots (frame : Frame) : Slots :=
  Mend.slots (schema.references frame.depth) frame.owner frame.location
    frame.trail 0
    frame.fields

def insideSlots : Option Frame → Slots
  | none => []
  | some frame => frame.slots schema

def enter (frame : Frame) (location : List Nat) : Shape → Option Frame
  | .inline fields =>
    if .inline frame.owner location ∈ frame.trail then none
    else some { frame with
      location := location
      trail := .inline frame.owner location :: frame.trail
      fields := fields }
  | .reference name =>
    match schema.find? name, frame.depth with
    | some declaration, depth + 1 =>
      if declaration.kind.isObject ∧ declaration.site ∉ frame.trail then
        some (ofDeclaration declaration depth frame.trail)
      else none
    | _, _ => none
  | _ => none

/-! ## Visits -/

variable {schema} (frame : Frame) (location : List Nat)

theorem value_object_inline (fields : List Field) (value : Json) :
    (Mend.object .tracked frame.trail (.inline frame.owner location)
      (fun trail members =>
        Mend.fields (schema.references frame.depth) frame.owner location
        trail 0 fields members) value).value =
      Slots.visit
        (insideSlots schema (enter schema frame location (.inline fields)))
        value := by
  by_cases hobject : value.isObject
  · cases value <;> simp_all [isObject]
    rename_i members
    rw [Mend.value_object_members]
    by_cases hsite : Site.inline frame.owner location ∈ frame.trail
    · simp [enter, hsite, insideSlots]
    · simp [enter, hsite, insideSlots, Slots.visit, slots, Mend.value_fields]
  · have hvalue : value.isObject = false := by simpa using hobject
    rw [Mend.value_object_of_isObject_eq_false _ _ _ hvalue,
      Slots.visit_of_isObject_eq_false _ hvalue]

theorem value_object_change (declaration : Declaration) (depth : Nat)
    (trail : Trail) (hsite : declaration.site ∉ trail) (value : Json) :
    (Mend.object .tracked trail declaration.site
      (declaration.change (schema.references depth)) value).value =
        Slots.visit ((ofDeclaration declaration depth trail).slots schema)
        value := by
  by_cases hobject : value.isObject
  · cases value <;> simp_all [isObject]
    rename_i members
    rw [Mend.value_object_members, if_neg hsite]
    simp [Declaration.change, Slots.visit, slots, ofDeclaration,
      Mend.value_fields]
  · have hvalue : value.isObject = false := by simpa using hobject
    rw [Mend.value_object_of_isObject_eq_false _ _ _ hvalue,
      Slots.visit_of_isObject_eq_false _ hvalue]

theorem visit_reference {name : String} {declaration : Declaration}
    (hfind : schema.find? name = some declaration)
    (hkind : declaration.kind.isObject = true) (value : Json) :
    References.visit (schema.below frame.depth) frame.trail declaration value =
      Slots.visit
        (insideSlots schema (enter schema frame location (.reference name)))
        value := by
  unfold References.visit References.within
  cases hdepth : frame.depth with
  | zero => simp [Schema.below, enter, hfind, hdepth, insideSlots]
  | succ depth =>
      by_cases hsite : declaration.site ∈ frame.trail
      · simp [enter, hfind, hdepth, hkind, hsite, insideSlots]
      · simp [Schema.below, enter, hfind, hdepth, hkind, hsite, insideSlots,
          value_object_change]

/-! ## What an alternative accepts -/

def rework (schema : Schema) (inside : Bool → Option Frame) : Json → Json
  | .object members =>
      Slots.visit (insideSlots schema (inside false)) (.object members)
  | .array items =>
      .array (items.map (Slots.visit (insideSlots schema (inside true))))
  | value => value

def inside (schema : Schema) (frame : Frame) (location : List Nat)
    (alternative : Alternative) (isList : Bool) : Option Frame :=
  if alternative.isArray = isList then
    enter schema frame location alternative.shape
  else none

abbrev receive (schema : Schema) (frame : Frame) (location : List Nat)
    (alternative : Alternative) (value : Json) : Option Json :=
  Mend.receive (schema.references frame.depth) frame.owner location frame.trail
    alternative value

theorem receive_alike (hplain : schema.LiteralUnionsPlain)
    (alternative : Alternative) {value other : Json} (h : Alike value other) :
    (receive schema frame location alternative value).isSome =
      (receive schema frame location alternative other).isSome := by
  obtain ⟨shape, isArray⟩ := alternative
  have hkind := h.kind_eq
  rw [Bool.eq_iff_iff]
  cases isArray with
  | true =>
      cases shape with
      | primitive primitive => simp [Mend.receive, Mend.acceptList, hkind]
      | literal literal => simp [Mend.receive, Mend.acceptList, hkind]
      | inline fields =>
          cases value <;> cases other <;>
            simp_all [Mend.receive, Mend.acceptList, Alike]
      | reference name =>
          cases value <;> cases other <;>
            simp_all [Mend.receive, Mend.acceptList, Alike]
  | false =>
      cases shape with
      | primitive primitive => simp [Mend.receive, Mend.accept, hkind]
      | literal literal =>
          simp [Mend.receive, Mend.accept, literal.accepts_alike h]
      | inline fields => simp [Mend.receive, Mend.accept]
      | reference name =>
          simp only [Mend.receive, Mend.accept, schema.references_eq,
            Bool.false_eq_true, if_false]
          cases hfind : schema.find? name with
          | none => simp [References.accept_undeclared _ _ hfind]
          | some declaration =>
              cases hobject : declaration.kind.isObject with
              | true => simp [References.accept_object _ _ hfind hobject]
              | false =>
                  simp [References.accept_union _ _ hfind hplain hobject,
                    admitsLiteral_alike _ h]

private theorem rework_of_none {inside : Bool → Option Frame}
    (h : ∀ isList, inside isList = none) (value : Json) :
    rework schema inside value = value := by
  have hvisit : Slots.visit [] = id := funext Slots.visit_nil
  cases value <;> simp [rework, h, insideSlots, hvisit]

theorem rework_of_isScalar {inside : Bool → Option Frame} {value : Json}
    (h : value.isScalar) : rework schema inside value = value := by
  cases value <;> simp_all [rework, isScalar]

private theorem inside_eq_none {alternative : Alternative}
    (h : enter schema frame location alternative.shape = none) (isList : Bool) :
    inside schema frame location alternative isList = none := by
  simp [inside, h]

private theorem value_acceptList_reference {name : String} (items : List Json) :
    (items.map fun item =>
      ((schema.references frame.depth).element frame.trail name item).value) =
      items.map (Slots.visit (insideSlots schema
        (enter schema frame location (.reference name)))) := by
  apply List.map_congr_left
  intro item _
  rw [schema.references_eq]
  cases hfind : schema.find? name with
  | none =>
      rw [References.element_undeclared _ _ hfind]
      simp [enter, hfind, insideSlots]
  | some declaration =>
      cases hkind : declaration.kind.isObject with
      | true =>
          rw [References.element_object _ _ hfind hkind]
          exact visit_reference frame location hfind hkind item
      | false =>
          rw [References.element_union _ _ hfind hkind]
          cases hdepth :
            frame.depth <;> simp [enter, hfind, hkind, hdepth, insideSlots]

theorem receive_list_eq_some {shape : Shape} {value other : Json}
    (h : receive schema frame location ⟨shape, true⟩ value = some other) :
    other =
      rework schema (inside schema frame location ⟨shape, true⟩) value := by
  simp only [receive, Mend.receive, if_true] at h
  cases shape with
  | primitive primitive =>
      rw [rework_of_none (inside_eq_none frame location rfl)]
      simp_all [Mend.acceptList]
  | literal literal =>
      rw [rework_of_none (inside_eq_none frame location rfl)]
      simp_all [Mend.acceptList]
  | inline fields =>
      cases value <;> simp_all [Mend.acceptList, rework, inside, insideSlots,
        value_object_inline]
  | reference name =>
      cases value <;> simp_all [Mend.acceptList, rework, inside, insideSlots,
        value_acceptList_reference frame location]

theorem rework_inside_one (shape : Shape) (value : Json) :
    rework schema (inside schema frame location ⟨shape, false⟩) value =
      Slots.visit (insideSlots schema (enter schema frame location shape))
        value := by
  have hvisit : Slots.visit [] = id := funext Slots.visit_nil
  cases value <;> simp [rework, inside, insideSlots, Slots.visit, hvisit]

theorem receive_one_eq_some (hplain : schema.LiteralUnionsPlain) {shape : Shape}
    {value other : Json}
    (h : receive schema frame location ⟨shape, false⟩ value = some other) :
    other =
      rework schema (inside schema frame location ⟨shape, false⟩) value := by
  rw [rework_inside_one]
  simp only [receive, Mend.receive, Bool.false_eq_true, if_false] at h
  cases shape with
  | primitive primitive => simp_all [Mend.accept, enter, insideSlots]
  | literal literal => simp_all [Mend.accept, enter, insideSlots]
  | inline fields =>
      simp only [Mend.accept, schema.enter_references, Logged.value_bind,
        Logged.value_pure, value_object_inline, Option.some.injEq] at h
      exact h.symm
  | reference name =>
      simp only [Mend.accept, schema.references_eq] at h
      cases hfind : schema.find? name with
      | none =>
          rw [References.accept_undeclared _ _ hfind] at h
          simp_all [enter, insideSlots]
      | some declaration =>
          cases hkind : declaration.kind.isObject with
          | true =>
              rw [References.accept_object _ _ hfind hkind,
                visit_reference frame location hfind hkind] at h
              exact (Option.some.inj h).symm
          | false =>
              rw [References.accept_union _ _ hfind hplain hkind] at h
              cases hdepth : frame.depth <;>
                simp_all [enter, insideSlots]

theorem receive_eq_some (hplain : schema.LiteralUnionsPlain)
    {alternative : Alternative} {value other : Json}
    (h : receive schema frame location alternative value = some other) :
    other = rework schema (inside schema frame location alternative) value := by
  obtain ⟨shape, isArray⟩ := alternative
  cases isArray with
  | true => exact receive_list_eq_some frame location h
  | false => exact receive_one_eq_some frame location hplain h

theorem receive_of_defaultsToObject {alternative : Alternative}
    (h : schema.defaultsToObject alternative.shape) (value : Json) :
    receive schema frame location alternative value =
      some
        (rework schema (inside schema frame location alternative) value) := by
  obtain ⟨shape, isArray⟩ := alternative
  cases isArray with
  | true =>
      obtain ⟨other, hother⟩ : ∃ other,
          receive schema frame location ⟨shape, true⟩ value = some other := by
        cases shape <;> cases value <;>
          simp_all [Mend.receive, Mend.acceptList, Schema.defaultsToObject,
            schema.references_eq, References.ofSchema]
      rw [hother, receive_list_eq_some frame location hother]
  | false =>
      rw [rework_inside_one]
      cases shape with
      | primitive primitive => simp [Schema.defaultsToObject] at h
      | literal literal => simp [Schema.defaultsToObject] at h
      | inline fields => simp [Mend.receive, Mend.accept, value_object_inline]
      | reference name =>
          simp only [Mend.receive, Mend.accept, schema.references_eq,
            Bool.false_eq_true, if_false]
          cases hfind : schema.find? name with
          | none =>
              rw [References.accept_undeclared _ _ hfind]
              simp [enter, hfind, insideSlots]
          | some declaration =>
              have hkind : declaration.kind.isObject = true := by
                simpa [Schema.defaultsToObject, hfind] using h
              rw [References.accept_object _ _ hfind hkind,
                visit_reference frame location hfind hkind]

/-! ## Defaults -/

theorem value_fallback_object {shape : Shape}
    (h : schema.defaultsToObject shape = true) :
    (Mend.fallback (schema.references frame.depth) frame.owner location
      frame.trail shape).value =
      Slots.visit (insideSlots schema (enter schema frame location shape))
        (.object []) := by
  cases shape with
  | primitive primitive => simp [Schema.defaultsToObject] at h
  | literal literal => simp [Schema.defaultsToObject] at h
  | inline fields =>
      rw [Mend.fallback, schema.enter_references]
      exact value_object_inline frame location fields (.object [])
  | reference name =>
      simp only [Mend.fallback, schema.references_eq]
      cases hfind : schema.find? name with
      | none =>
          rw [References.fallback_undeclared _ _ hfind]
          simp [enter, hfind, insideSlots]
      | some declaration =>
          have hkind : declaration.kind.isObject = true := by
            simpa [Schema.defaultsToObject, hfind] using h
          rw [References.fallback_object _ _ hfind hkind]
          exact visit_reference frame location hfind hkind (.object [])

theorem isScalar_fallback (hplain : schema.LiteralUnionsPlain) {shape : Shape}
    (h : schema.defaultsToObject shape = false) :
    (Mend.fallback (schema.references frame.depth) frame.owner location
      frame.trail shape).value.isScalar := by
  cases shape with
  | primitive primitive => exact primitive.isScalar_fallback
  | literal literal => exact literal.isScalar_toJson
  | inline fields => simp [Schema.defaultsToObject] at h
  | reference name =>
      simp only [Mend.fallback, schema.references_eq]
      cases hfind : schema.find? name with
      | none => simp [Schema.defaultsToObject, hfind] at h
      | some declaration =>
          have hkind : declaration.kind.isObject = false := by
            simpa [Schema.defaultsToObject, hfind] using h
          exact References.isScalar_fallback_union _ _ hfind hplain hkind

theorem enter_eq_none {shape : Shape} (h : schema.namesFields shape = false) :
    enter schema frame location shape = none := by
  cases shape with
  | primitive primitive => rfl
  | literal literal => rfl
  | inline fields => simp [Schema.namesFields] at h
  | reference name =>
      cases hfind : schema.find? name with
      | none => simp [enter, hfind]
      | some declaration =>
          cases hdepth : frame.depth <;> simp_all [enter, Schema.namesFields]

end Frame

end ShapeMend
