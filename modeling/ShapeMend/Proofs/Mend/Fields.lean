import ShapeMend.Proofs.Mend.Slots

/-!
# Fields as slots

The events of mending put aside, the fields of an object fill its slots in
order.  A field accepts by the first of its alternatives that does, and has the
default of the last one.
-/

namespace ShapeMend

namespace Json

def Alike : Json → Json → Prop
  | .object _, .object _ => True
  | .array _, .array _ => True
  | value, other => value = other

@[simp] theorem alike_refl (value : Json) : Alike value value := by
  cases value <;> simp [Alike]

@[simp] theorem alike_object (members others : Members) :
    Alike (.object members) (.object others) := trivial

@[simp] theorem alike_array (items others : List Json) :
    Alike (.array items) (.array others) := trivial

theorem Alike.kind_eq {value other : Json} (h : Alike value other) :
    value.kind = other.kind := by
  cases value <;> cases other <;> simp_all [Alike, kind]

theorem Alike.trans {first second third : Json} (h : Alike first second)
    (h' : Alike second third) : Alike first third := by
  cases first <;> cases second <;> cases third <;> simp_all [Alike]

def isScalar : Json → Bool
  | .object _ | .array _ => false
  | _ => true

end Json

open Json

namespace Literal

theorem isScalar_toJson (literal : Literal) : literal.toJson.isScalar := by
  cases literal with
  | string value => rfl
  | boolean value => rfl
  | notANumber => rfl
  | number value =>
      simp only [toJson, numberToJson]
      repeat' split
      all_goals rfl

theorem accepts_alike (literal : Literal) {value other : Json}
    (h : Alike value other) :
    literal.accepts value = literal.accepts other := by
  cases literal <;> cases value <;> cases other <;> simp_all [Alike, accepts]

end Literal

theorem Primitive.isScalar_fallback (primitive : Primitive) :
    primitive.fallback.isScalar := by
  cases primitive <;> rfl

theorem Slots.visit_alike (slots : Slots) (value : Json) :
    Alike value (visit slots value) := by
  cases value <;> simp [visit]

theorem Slots.renew_alike (slots : Slots) (value : Json) :
    Alike value (renew slots value) := by
  cases value <;> simp [renew, visit]

@[simp] theorem Schema.enter_references (schema : Schema) (depth : Nat) :
    (schema.references depth).enter = .tracked := by
  cases depth <;> rfl

namespace Mend

/-! ## Objects -/

section Object

variable (trail : Trail) (site : Site)
  (change : Trail → Members → Logged Members)

theorem value_object_members (members : Members) :
    (object .tracked trail site change (.object members)).value =
      if site ∈ trail then .object members
      else .object (change (site :: trail) members).value := by
  by_cases hsite : site ∈ trail <;> simp [object, Entry.tracked, hsite]

theorem value_object_of_isObject_eq_false {value : Json}
    (h : value.isObject = false) :
    (object .tracked trail site change value).value = value := by
  cases value <;> simp_all [object, isObject]

end Object

/-! ## Alternatives -/

section Alternatives

variable (references : References) (owner : String) (location : List Nat)
  (trail : Trail)

def receive (alternative : Alternative) (value : Json) : Option Json :=
  if alternative.isArray then
    (acceptList references owner location trail alternative.shape value).value
  else (accept references owner location trail alternative.shape value).value

def standIn (alternative : Alternative) : Json :=
  if alternative.isArray then .array []
  else (fallback references owner location trail alternative.shape).value

@[simp] theorem value_firstAccepted_nil (index : Nat) (value : Json) :
    (firstAccepted references owner location trail index [] value).value =
      none :=
  rfl

theorem value_firstAccepted_cons (index : Nat) (alternative : Alternative)
    (rest : List Alternative) (value : Json) :
    (firstAccepted references owner location trail index (alternative :: rest)
      value).value =
      (receive references owner (index :: location) trail alternative value).or
        (firstAccepted references owner location trail (index + 1) rest
          value).value := by
  obtain ⟨shape, isArray⟩ := alternative
  simp only [firstAccepted, receive]
  cases isArray with
  | false =>
      cases h :
        (accept references owner (index :: location) trail shape
          value).value <;>
        simp [h]
  | true =>
      cases h :
        (acceptList references owner (index :: location) trail shape
          value).value <;>
        simp [h]

@[simp] theorem value_lastFallback_nil (index : Nat) :
    (lastFallback references owner location trail index []).value = none := rfl

theorem value_lastFallback_concat (index : Nat) (earlier : List Alternative)
    (last : Alternative) :
    (lastFallback references owner location trail index
      (earlier ++ [last])).value =
      some
        (standIn references owner ((index + earlier.length) :: location) trail
          last) := by
  induction earlier generalizing index with
  | nil =>
      obtain ⟨shape, isArray⟩ := last
      cases isArray <;> simp [lastFallback, standIn]
  | cons alternative earlier ih =>
      have hnext := ih (index + 1)
      rw [List.length_cons, Nat.add_comm earlier.length, ← Nat.add_assoc,
        ← hnext]
      cases earlier <;> simp [lastFallback]

def slot (alternatives : List Alternative) : Slot where
  accept value :=
    (firstAccepted references owner location trail 0 alternatives value).value
  fallback :=
    (lastFallback references owner location trail 0 alternatives).value

def slots : Nat → List Field → Slots
  | _, [] => []
  | index, field :: rest =>
    (field.key,
      slot references owner (index :: location) trail field.alternatives) ::
      slots (index + 1) rest

theorem value_fields (index : Nat) (list : List Field) (members : Members) :
    (fields references owner location trail index list members).value =
      Slots.fill (slots references owner location trail index list)
        members := by
  induction list generalizing index members with
  | nil => rfl
  | cons field rest ih =>
      obtain ⟨key, optional, alternatives⟩ := field
      simp only [fields, slots, Slots.fill, slot, Slot.fill]
      cases hfound : Keyed.lookup key members with
      | none =>
          cases hdefault :
            (lastFallback references owner (index :: location) trail 0
              alternatives).value <;>
            simp [ih, hdefault]
      | some value =>
          cases haccept :
            (firstAccepted references owner (index :: location) trail 0
              alternatives value).value with
          | some other => simp [ih, haccept]
          | none =>
              cases hdefault :
                (lastFallback references owner (index :: location) trail 0
                  alternatives).value with
              | some other => simp [ih, haccept, hdefault]
              | none => simp [ih, haccept, hdefault, Keyed.put_of_lookup hfound]

end Alternatives

end Mend

end ShapeMend
