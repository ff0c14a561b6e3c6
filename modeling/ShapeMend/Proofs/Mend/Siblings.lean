import ShapeMend.Proofs.Mend.References

/-!
# Siblings

What mending makes of a key depends on what stands under it and on nothing else
in the object: not on the values of other keys, and not on how they are mended
or filled in, since the trail that leads to a field is handed down to it and its
siblings alike.  The same holds of a key further inside, as long as there are
objects on the way to it.
-/

namespace ShapeMend

open Json

/-- The same at the end of a path of keys.  The objects on the way may differ in
all their other members; where there is none, the values are the same as a
whole. -/
def Json.AgreeAt : List String → Json → Json → Prop
  | [], value, other => value = other
  | key :: path, value, other =>
    value = other ∨ ∃ members others,
      value = .object members ∧ other = .object others ∧
      Option.Rel (AgreeAt path) (Keyed.lookup key members)
        (Keyed.lookup key others)

namespace Json.AgreeAt

theorem refl (path : List String) (value : Json) :
    AgreeAt path value value := by
  cases path with
  | nil => rfl
  | cons key path => exact .inl rfl

theorem rel_refl (path : List String) (found : Option Json) :
    Option.Rel (AgreeAt path) found found := by
  cases found with
  | none => exact .none
  | some value => exact .some (refl path value)

theorem eq_or_object {path : List String} {value other : Json}
    (h : AgreeAt path value other) :
    value = other ∨ ∃ members others,
      value = .object members ∧ other = .object others := by
  cases path with
  | nil => exact .inl h
  | cons key path =>
      rcases h with hsame | ⟨members, others, hvalue, hother, -⟩
      · exact .inl hsame
      · exact .inr ⟨members, others, hvalue, hother⟩

private theorem object_iff {key : String} {members others : Members} :
    AgreeAt [key] (.object members) (.object others) ↔
      Keyed.lookup key members = Keyed.lookup key others := by
  constructor
  · rintro (hsame | ⟨_, _, hmembers, hothers, hrel⟩)
    · rw [Json.object.inj hsame]
    · obtain rfl := Json.object.inj hmembers
      obtain rfl := Json.object.inj hothers
      revert hrel
      generalize Keyed.lookup key members = found
      generalize Keyed.lookup key others = other
      rintro (h | _)
      · exact congrArg some h
      · rfl
  · intro h
    exact .inr ⟨members, others, rfl, rfl, h ▸ rel_refl [] _⟩

end Json.AgreeAt

/-- What is made of values that agree at the end of a path agrees there, and of
both something is made or of neither. -/
def KeepsAgreement (change : Json → Option Json) : Prop :=
  ∀ path value other, AgreeAt path value other →
    Option.Rel (AgreeAt path) (change value) (change other)

theorem KeepsAgreement.of_objects {change : Json → Option Json}
    (h : ∀ path members others,
      AgreeAt path (.object members) (.object others) →
      Option.Rel (AgreeAt path) (change (.object members))
      (change (.object others))) : KeepsAgreement change := by
  intro path value other hagree
  rcases hagree.eq_or_object with rfl | ⟨members, others, rfl, rfl⟩
  · exact AgreeAt.rel_refl path _
  · exact h path members others hagree

/-! ## Slots -/

private theorem Slot.fill_agree {slot : Slot}
    (hslot : KeepsAgreement slot.accept) {path : List String}
    {found other : Option Json} (h : Option.Rel (AgreeAt path) found other) :
    Option.Rel (AgreeAt path) (slot.fill found) (slot.fill other) := by
  cases h with
  | none => exact AgreeAt.rel_refl path _
  | some h =>
      rename_i value changed
      have haccept := hslot path value changed h
      unfold fill
      rw [Option.bind_some, Option.bind_some]
      revert haccept
      generalize slot.accept value = kept
      generalize slot.accept changed = held
      rintro (hkept | _)
      · exact .some hkept
      · cases slot.fallback with
        | none => exact .some h
        | some default => exact .some (AgreeAt.refl path default)

namespace Slots

variable {slots : Slots}
  (hslots : ∀ entry ∈ slots, KeepsAgreement entry.2.accept)
include hslots

private theorem under_agree (key : String) {path : List String}
    {found other : Option Json} (h : Option.Rel (AgreeAt path) found other) :
    Option.Rel (AgreeAt path) (under key slots found)
      (under key slots other) := by
  induction slots generalizing found other with
  | nil => exact h
  | cons entry slots ih =>
      obtain ⟨name, slot⟩ := entry
      obtain ⟨hslot, hlater⟩ := List.forall_mem_cons.mp hslots
      unfold under
      refine ih hlater ?_
      split
      · exact Slot.fill_agree hslot h
      · exact h

theorem fill_agree {path : List String} {members others : Members}
    (h : AgreeAt path (.object members) (.object others)) :
    AgreeAt path (.object (fill slots members))
      (.object (fill slots others)) := by
  cases path with
  | nil => rw [Json.object.inj h]; exact .refl [] _
  | cons key path =>
      rcases h with hsame | ⟨_, _, hmembers, hothers, hrel⟩
      · rw [Json.object.inj hsame]
        exact .refl _ _
      · obtain rfl := Json.object.inj hmembers
        obtain rfl := Json.object.inj hothers
        refine .inr ⟨_, _, rfl, rfl, ?_⟩
        rw [lookup_fill, lookup_fill]
        exact under_agree hslots key hrel

end Slots

/-! ## Shapes -/

structure References.KeepAgreement (references : References) : Prop where
  enter : references.enter = .tracked
  accept : ∀ trail name, KeepsAgreement fun value =>
    (references.accept trail name value).value

namespace Mend

variable {references : References}

theorem object_agree {trail : Trail} {site : Site}
    {change : Trail → Members → Logged Members} {path : List String}
    {members others : Members}
    (hchange : ∀ trail,
      AgreeAt path (.object (change trail members).value)
      (.object (change trail others).value))
    (h : AgreeAt path (.object members) (.object others)) :
    AgreeAt path (object .tracked trail site change (.object members)).value
      (object .tracked trail site change (.object others)).value := by
  rw [value_object_members, value_object_members]
  split
  · exact h
  · exact hchange _

mutual

theorem shape_agree (hreferences : references.KeepAgreement) (shape : Shape)
    (owner : String) (location : List Nat) (trail : Trail) :
    KeepsAgreement
      (fun value =>
        (accept references owner location trail shape value).value) ∧
      KeepsAgreement
        (fun value =>
          (acceptList references owner location trail shape value).value) := by
  match shape with
  | .primitive primitive =>
      refine ⟨.of_objects fun path members others h => ?_,
        .of_objects fun path members others h => .none⟩
      by_cases hadmits : primitive.admits .object
      · simp only [accept, Json.kind, hadmits, if_true, Logged.value_pure]
        exact .some h
      · simp only [accept, Json.kind, hadmits, Bool.false_eq_true, if_false,
          Logged.value_pure]
        exact .none
  | .literal literal =>
      refine ⟨.of_objects fun path members others h => ?_,
        .of_objects fun path members others h => .none⟩
      have hrefused (members : Members) :
          literal.accepts (.object members) = false := by cases literal <;> rfl
      simp only [accept, hrefused]
      exact .none
  | .reference name =>
      refine ⟨hreferences.accept trail name,
        .of_objects fun path members others h => ?_⟩
      simp only [acceptList, Logged.value_pure]
      split
      · exact .some h
      · exact .none
  | .inline fields =>
      refine ⟨.of_objects fun path members others h => ?_,
        .of_objects fun path members others h => .some h⟩
      simp only [accept, hreferences.enter]
      refine .some (object_agree (fun trail => ?_) h)
      rw [value_fields, value_fields]
      exact Slots.fill_agree
        (slots_agree hreferences fields owner location trail 0) h

private theorem slots_agree (hreferences : references.KeepAgreement)
    (fields : List (FieldOf Shape)) (owner : String) (location : List Nat)
    (trail : Trail) (index : Nat) :
    ∀ entry ∈ slots references owner location trail index fields,
      KeepsAgreement entry.2.accept := by
  match fields with
  | [] => exact List.forall_mem_nil _
  | ⟨_, _, alternatives⟩ :: fields =>
      rw [slots, List.forall_mem_cons]
      exact ⟨firstAccepted_agree hreferences alternatives owner
        (index :: location) trail 0,
        slots_agree hreferences fields owner location trail (index + 1)⟩

private theorem firstAccepted_agree (hreferences : references.KeepAgreement)
    (alternatives : List (AlternativeOf Shape)) (owner : String)
    (location : List Nat) (trail : Trail) (index : Nat) :
    KeepsAgreement fun value =>
      (firstAccepted references owner location trail index alternatives
        value).value := by
  match alternatives with
  | [] => exact fun _ _ _ _ => .none
  | ⟨shape, isArray⟩ :: rest =>
      intro path value other h
      obtain ⟨hone, hlist⟩ :=
        shape_agree hreferences shape owner (index :: location) trail
      have hlater :=
        firstAccepted_agree hreferences rest owner location trail (index + 1)
          path value other h
      have hfirst : Option.Rel (AgreeAt path)
          (receive references owner (index :: location) trail
            ⟨shape, isArray⟩ value)
          (receive references owner (index :: location) trail ⟨shape, isArray⟩
            other) := by
        cases isArray with
        | true => exact hlist path value other h
        | false => exact hone path value other h
      dsimp only
      rw [value_firstAccepted_cons, value_firstAccepted_cons]
      revert hfirst
      generalize receive references owner (index :: location) trail
        ⟨shape, isArray⟩ value = kept
      generalize receive references owner (index :: location) trail
        ⟨shape, isArray⟩ other = held
      rintro (h | _)
      · exact .some h
      · exact hlater

end

end Mend

namespace Declaration

variable {references : References} (hreferences : references.KeepAgreement)
  (declaration : Declaration)
include hreferences

theorem object_agree (trail : Trail) {path : List String}
    {members others : Members}
    (h : AgreeAt path (.object members) (.object others)) :
    AgreeAt path
      (Mend.object .tracked trail declaration.site
        (declaration.change references) (.object members)).value
      (Mend.object .tracked trail declaration.site
        (declaration.change references) (.object others)).value := by
  refine Mend.object_agree (fun trail => ?_) h
  rw [change, change, Mend.value_fields, Mend.value_fields]
  exact Slots.fill_agree
    (Mend.slots_agree hreferences declaration.fields declaration.name []
      trail 0) h

theorem acceptUnion_agree (trail : Trail) :
    KeepsAgreement fun value =>
      (declaration.acceptUnion references trail value).value :=
  Mend.firstAccepted_agree hreferences declaration.unionAlternatives
    declaration.name unionLocation trail 0

end Declaration

private theorem References.KeepAgreement.ofSchema {schema : Schema}
    {inner : Option References}
    (hinner : ∀ below ∈ inner, below.KeepAgreement) :
    (ofSchema .tracked schema inner).KeepAgreement := by
  refine ⟨rfl, fun trail name => ?_⟩
  refine .of_objects fun path members others h => ?_
  cases hfind : schema.find? name with
  | none =>
      simp only [accept_undeclared inner trail hfind]
      exact .some h
  | some declaration =>
      simp only [References.ofSchema, hfind]
      cases hwithin : within inner trail declaration.site with
      | none =>
          dsimp only
          split
          · exact .some h
          · exact .none
      | some below =>
          have hbelow := hinner below (of_within hwithin).2
          dsimp only
          split
          · exact .some (declaration.object_agree hbelow trail h)
          · exact declaration.acceptUnion_agree hbelow _ path _ _ h

private theorem References.keepAgreement (schema : Schema) (depth : Nat) :
    (schema.references depth).KeepAgreement := by
  induction depth with
  | zero => exact .ofSchema fun _ hnone => by cases hnone
  | succ depth ih => exact .ofSchema fun _ hbelow => Option.some.inj hbelow ▸ ih

/-! ## Whole values -/

namespace Schema

variable {declaration : Declaration}

private theorem mend_agree (schema : Schema) (declaration : Declaration)
    (isArray : Bool) {path : List String} {value other : Json}
    (h : AgreeAt path value other) :
    AgreeAt path (schema.mend declaration isArray value).value
      (schema.mend declaration isArray other).value := by
  rcases h.eq_or_object with rfl | ⟨members, others, rfl, rfl⟩
  · exact .refl path _
  have hreferences := References.keepAgreement schema schema.declarations.length
  cases isArray with
  | true =>
      simp only [mend, mendList, Declaration.mendList, if_true]
      split
      · exact h
      · exact .refl path _
  | false =>
      simp only [mend, Bool.false_eq_true, if_false]
      cases hkind : declaration.kind.isObject with
      | true =>
          simp only [mendOne, References.mendOne, hkind, if_true]
          exact declaration.object_agree hreferences [] h
      | false =>
          have haccept :=
            declaration.acceptUnion_agree hreferences [] path _ _ h
          dsimp only at haccept
          rw [value_mendOne_eq_getD hkind, value_mendOne_eq_getD hkind]
          revert haccept
          generalize (declaration.acceptUnion _ [] (.object members)).value =
            kept
          generalize (declaration.acceptUnion _ [] (.object others)).value =
            held
          rintro (hkept | _)
          · exact hkept
          · cases (declaration.unionFallback
              (schema.references schema.declarations.length) []).value with
            | none => exact h
            | some default => exact .refl path default

/-- Objects that agree under a key are mended to objects that agree under it. -/
theorem lookup_mend_eq (schema : Schema) (hkind : declaration.kind.isObject)
    {members others : Members} {key : String}
    (h : Keyed.lookup key members = Keyed.lookup key others) :
    ∃ made more,
      (schema.mend declaration false (.object members)).value = .object made ∧
      (schema.mend declaration false (.object others)).value = .object more ∧
      Keyed.lookup key made = Keyed.lookup key more := by
  have hobject (members : Members) : ∃ made,
      (schema.mend declaration false (.object members)).value =
        .object made := by
    simp [mend, mendOne, References.mendOne, hkind, Mend.value_object_members]
  obtain ⟨made, hmade⟩ := hobject members
  obtain ⟨more, hmore⟩ := hobject others
  have hagree := mend_agree schema declaration false (AgreeAt.object_iff.mpr h)
  rw [hmade, hmore] at hagree
  exact ⟨made, more, hmade, hmore, AgreeAt.object_iff.mp hagree⟩

/-- Folders in folders, with a repeated key, a reference to a literal union and
a name that is not declared. -/
def folders : Schema where
  declarations := [
    { name := "Folder"
      kind := .interface
      exported := true
      fields := [
        ⟨"mode", false, [⟨.reference "Mode", false⟩]⟩,
        ⟨"up", false, [⟨.reference "Folder", false⟩]⟩,
        ⟨"up", false,
          [⟨.primitive .null, false⟩, ⟨.reference "Folder", false⟩]⟩,
        ⟨"owner", true, [⟨.reference "User", false⟩]⟩] },
    { name := "Mode"
      kind := .literalUnion
      exported := false
      fields := [⟨"Mode", false, [⟨.literal (.string "open"), false⟩,
        ⟨.literal (.string "closed"), false⟩]⟩] }]
  distinct := by decide

theorem lookup_mend_eq_folders : ∃ declaration,
    folders.find? "Folder" = some declaration ∧ declaration.kind.isObject ∧
      ∃ made more,
        (folders.mend declaration false (.object
          [("mode", .null), ("up", .object [("mode", .bool true)])])).value =
          .object made ∧
        (folders.mend declaration false (.object
          [("up", .object [("mode", .bool true)]), ("owner", .null)])).value =
          .object more ∧
        Keyed.lookup "up" made = Keyed.lookup "up" more := by
  have hfind : folders.find? "Folder" = some folders.declarations[0] := rfl
  exact ⟨_, hfind, rfl, lookup_mend_eq folders rfl rfl⟩

end Schema

end ShapeMend
