import ShapeMend.Proofs.Mend.Frames

/-!
# Contexts

When a key is repeated, several fields look into the same object, one after
another.  A context lists all the fields that mend an object, each with the
frame in which it visits what it accepts.  Whether a field accepts an object or
a list does not depend on what is inside, so the context of the objects under a
key is known from the context around them.
-/

namespace ShapeMend

open Json

/-- A field at work: its slot, and the frame in which it visits an accepted
object, or the objects of an accepted list. -/
structure Fitting where
  key : String
  slot : Slot
  inside : Bool → Option Frame

abbrev Context := List Fitting

def Json.hollow (isList : Bool) : Json :=
  if isList then .array [] else .object []

namespace Frame

variable (schema : Schema)

def chosen (frame : Frame) (location : List Nat) (isList : Bool) :
    Nat → List Alternative → Option Frame
  | _, [] => none
  | index, alternative :: rest =>
    if (receive schema frame (index :: location) alternative
      (hollow isList)).isSome then
      inside schema frame (index :: location) alternative isList
    else chosen frame location isList (index + 1) rest

def fitting (frame : Frame) (index : Nat) (field : Field) : Fitting where
  key := field.key
  slot := Mend.slot (schema.references frame.depth) frame.owner
    (index :: frame.location)
    frame.trail field.alternatives
  inside isList :=
    chosen schema frame (index :: frame.location) isList 0 field.alternatives

def fittings (frame : Frame) : Nat → List Field → Context
  | _, [] => []
  | index, field :: rest =>
      fitting schema frame index field :: fittings frame (index + 1) rest

def context (frame : Frame) : Context := fittings schema frame 0 frame.fields

end Frame

/-! ## Sound fittings -/

/-- A field changes an accepted value only in its frames, and values that are
alike are accepted or refused together. -/
structure Fitting.Sound (schema : Schema) (fitting : Fitting) : Prop where
  accept_eq : ∀ {value other}, fitting.slot.accept value = some other →
    other = Frame.rework schema fitting.inside value
  accept_alike : ∀ {value other}, Alike value other →
    (fitting.slot.accept value).isSome = (fitting.slot.accept other).isSome

namespace Frame

theorem rework_of_alike {schema : Schema} {inside : Bool → Option Frame}
    {isList : Bool} {value : Json} (h : Alike (hollow isList) value) :
    rework schema inside value =
      Slots.renew (insideSlots schema (inside isList)) value := by
  cases isList <;> cases value <;> simp_all [hollow, Alike, rework, Slots.visit]

private theorem rework_congr {schema : Schema}
    {inside others : Bool → Option Frame} {value : Json}
    (h : ∀ isList,
      Alike (hollow isList) value → inside isList = others isList) :
    rework schema inside value = rework schema others value := by
  cases value with
  | object members => simp [rework, h false (by simp [hollow])]
  | array items => simp [rework, h true (by simp [hollow])]
  | _ => rfl

theorem mem_context {schema : Schema} {frame : Frame} {fitting : Fitting}
    (h : fitting ∈ frame.context schema) :
    ∃ index, ∃ field ∈ frame.fields,
      fitting = frame.fitting schema index field := by
  unfold context at h
  generalize frame.fields = fields at h
  generalize 0 = index at h
  induction fields generalizing index with
  | nil => simp [fittings] at h
  | cons field fields ih =>
      rcases List.mem_cons.mp h with rfl | htail
      · exact ⟨index, field, by simp, rfl⟩
      · obtain ⟨place, other, hother, rfl⟩ := ih (index + 1) htail
        exact ⟨place, other, by simp [hother], rfl⟩

variable {schema : Schema} (hplain : schema.LiteralUnionsPlain) (frame : Frame)
include hplain

private theorem firstAccepted_alike (location : List Nat) (index : Nat)
    (alternatives : List Alternative) {value other : Json}
    (h : Alike value other) :
    (Mend.firstAccepted (schema.references frame.depth) frame.owner location
      frame.trail index alternatives value).value.isSome =
      (Mend.firstAccepted (schema.references frame.depth) frame.owner location
        frame.trail index alternatives other).value.isSome := by
  induction alternatives generalizing index with
  | nil => rfl
  | cons alternative rest ih =>
      rw [Mend.value_firstAccepted_cons, Mend.value_firstAccepted_cons,
        Option.isSome_or, Option.isSome_or, ih (index + 1)]
      congr 1
      exact receive_alike frame (index :: location) hplain alternative h

private theorem firstAccepted_eq_rework (location : List Nat) (index : Nat)
    (alternatives : List Alternative) {value other : Json}
    (h :
      (Mend.firstAccepted (schema.references frame.depth) frame.owner location
      frame.trail index alternatives value).value = some other) :
    other = rework schema (fun isList =>
      chosen schema frame location isList index alternatives) value := by
  induction alternatives generalizing index with
  | nil => simp at h
  | cons alternative rest ih =>
      rw [Mend.value_firstAccepted_cons] at h
      cases hreceive : Mend.receive (schema.references frame.depth) frame.owner
          (index :: location) frame.trail alternative value with
      | some received =>
          rw [hreceive, Option.some_or, Option.some.injEq] at h
          subst h
          rw [receive_eq_some frame (index :: location) hplain hreceive]
          apply rework_congr
          intro isList halike
          have hprobe :=
            receive_alike frame (index :: location) hplain alternative halike
          simp only [receive, hreceive, Option.isSome_some] at hprobe
          simp [chosen, receive, hprobe]
      | none =>
          rw [hreceive, Option.none_or] at h
          rw [ih (index + 1) h]
          apply rework_congr
          intro isList halike
          have hprobe :=
            receive_alike frame (index :: location) hplain alternative halike
          simp only [receive, hreceive, Option.isSome_none] at hprobe
          simp [chosen, receive, hprobe]

theorem sound_context :
    ∀ fitting ∈ frame.context schema, fitting.Sound schema := by
  intro fitting hfitting
  obtain ⟨index, field, _, rfl⟩ := mem_context hfitting
  constructor
  · exact firstAccepted_eq_rework hplain frame _ 0 _
  · exact firstAccepted_alike hplain frame _ 0 _

end Frame

namespace Fitting.Sound

variable {schema : Schema} {fitting : Fitting} {isList : Bool}
  {value other : Json}

/-- What accepts an empty object, or an empty list, fills every one from its
context. -/
theorem fill_of_accepts (hfitting : fitting.Sound schema)
    (halike : Alike (hollow isList) value)
    (h : fitting.slot.accept (hollow isList) = some other) :
    fitting.slot.fill (some value) =
      some
        (Slots.renew (Frame.insideSlots schema (fitting.inside isList))
          value) := by
  have hprobe := hfitting.accept_alike halike
  rw [h] at hprobe
  obtain ⟨kept, hkept⟩ := Option.isSome_iff_exists.mp hprobe.symm
  have hrework : kept =
      Slots.renew (Frame.insideSlots schema (fitting.inside isList)) value := by
    rw [hfitting.accept_eq hkept]
    exact Frame.rework_of_alike halike
  simp [Slot.fill, hkept, hrework]

theorem refuses (hfitting : fitting.Sound schema)
    (halike : Alike (hollow isList) value)
    (h : fitting.slot.accept (hollow isList) = none) :
    fitting.slot.accept value = none := by
  have hprobe := hfitting.accept_alike halike
  rw [h] at hprobe
  simpa using hprobe.symm

/-- What refuses an empty object, or an empty list, and has no default leaves
every one alone. -/
theorem fill_of_refuses (hfitting : fitting.Sound schema)
    (halike : Alike (hollow isList) value)
    (h : fitting.slot.accept (hollow isList) = none)
    (hdefault : fitting.slot.fallback = none) :
    fitting.slot.fill (some value) = some value := by
  simp [Slot.fill, hfitting.refuses halike h, hdefault]

end Fitting.Sound

namespace Context

def slots (context : Context) : Slots :=
  context.map fun fitting => (fitting.key, fitting.slot)

@[simp] theorem slots_cons (fitting : Fitting) (context : Context) :
    slots (fitting :: context) = (fitting.key, fitting.slot) :: slots context :=
  rfl

@[simp] theorem slots_append (first second : Context) :
    slots (first ++ second) = slots first ++ slots second := List.map_append

def Sound (schema : Schema) (context : Context) : Prop :=
  ∀ fitting ∈ context, fitting.Sound schema

def ofInside (schema : Schema) : Option Frame → Context
  | none => []
  | some frame => frame.context schema

theorem slots_context (schema : Schema) (frame : Frame) :
    slots (frame.context schema) = frame.slots schema := by
  unfold Frame.context Frame.slots
  generalize frame.fields = fields
  generalize 0 = index
  induction fields generalizing index with
  | nil => rfl
  | cons field fields ih => simp [Frame.fittings, Frame.fitting, Mend.slots, ih]

private theorem slots_ofInside (schema : Schema) (inside : Option Frame) :
    slots (ofInside schema inside) = Frame.insideSlots schema inside := by
  cases inside with
  | none => rfl
  | some frame => exact slots_context schema frame

private theorem sound_ofInside {schema : Schema}
    (hplain : schema.LiteralUnionsPlain) (inside : Option Frame) :
    Sound schema (ofInside schema inside) := by
  cases inside with
  | none => simp [Sound, ofInside]
  | some frame => exact Frame.sound_context hplain frame

/-! ## The context under a key -/

/-- The context of the object, or of the objects of the list, under a key.
There is none if a field supplies its default instead. -/
def enter (schema : Schema) (key : String) (isList : Bool) :
    Context → Option Context
  | [] => some []
  | fitting :: rest =>
    if fitting.key = key then
      match fitting.slot.accept (hollow isList), fitting.slot.fallback with
      | some _, _ => (enter schema key isList rest).map fun context =>
        ofInside schema (fitting.inside isList) ++ context
      | none, some _ => none
      | none, none => enter schema key isList rest
    else enter schema key isList rest

theorem sound_enter {schema : Schema} (hplain : schema.LiteralUnionsPlain)
    {key : String} {isList : Bool} {context inner : Context}
    (h : enter schema key isList context = some inner) :
    Sound schema inner := by
  induction context generalizing inner with
  | nil => simp_all [enter, Sound]
  | cons fitting rest ih =>
      simp only [enter] at h
      split at h
      · split at h
        · obtain ⟨tail, htail, rfl⟩ := Option.map_eq_some_iff.mp h
          intro other hother
          rcases List.mem_append.mp hother with hother | hother
          · exact sound_ofInside hplain _ other hother
          · exact ih htail other hother
        · simp at h
        · exact ih h
      · exact ih h

/-- Where no default is supplied, the objects under a key are filled by the
slots of their context. -/
theorem under_of_enter {schema : Schema} {key : String} {isList : Bool}
    {context inner : Context} (hsound : Sound schema context)
    (h : enter schema key isList context = some inner) {value : Json}
    (halike : Alike (hollow isList) value) :
    Slots.under key context.slots (some value) =
      some (Slots.renew inner.slots value) := by
  induction context generalizing inner value with
  | nil =>
      obtain rfl : inner = [] := by simpa [enter] using h.symm
      simp [slots, Slots.under, Slots.renew_nil]
  | cons fitting rest ih =>
      have hrest : Sound schema rest :=
        fun other hother => hsound other (by simp [hother])
      have hfitting := hsound fitting (by simp)
      simp only [slots_cons, Slots.under]
      by_cases hkey : fitting.key = key
      · simp only [enter, hkey, if_true] at h
        rw [if_pos hkey]
        split at h
        · next other default haccepted =>
            obtain ⟨tail, htail, rfl⟩ := Option.map_eq_some_iff.mp h
            rw [hfitting.fill_of_accepts halike haccepted,
              ih hrest htail (halike.trans (Slots.renew_alike ..)),
                slots_append,
              Slots.renew_append, slots_ofInside]
        · simp at h
        · next hrefused hdefault =>
            rw [hfitting.fill_of_refuses halike hrefused hdefault]
            exact ih hrest h halike
      · simp only [enter, hkey, if_false] at h
        rw [if_neg hkey]
        exact ih hrest h halike

theorem supplies_of_enter {schema : Schema} {key : String} {isList : Bool}
    {context : Context} (hsound : Sound schema context)
    (h : enter schema key isList context = none) {value : Json}
    (halike : Alike (hollow isList) value) :
    Slots.supplies key context.slots (some value) := by
  induction context generalizing value with
  | nil => simp [enter] at h
  | cons fitting rest ih =>
      have hrest : Sound schema rest :=
        fun other hother => hsound other (by simp [hother])
      have hfitting := hsound fitting (by simp)
      simp only [slots_cons, Slots.supplies]
      by_cases hkey : fitting.key = key
      · simp only [enter, hkey, if_true] at h
        rw [if_pos hkey]
        split at h
        · next other default haccepted =>
            have htail : enter schema key isList rest = none := by simpa using h
            rw [hfitting.fill_of_accepts halike haccepted]
            simp [ih hrest htail (halike.trans (Slots.renew_alike ..))]
        · next default hrefused hdefault =>
              simp [hfitting.refuses halike hrefused, hdefault]
        · next hrefused hdefault =>
            rw [hfitting.fill_of_refuses halike hrefused hdefault]
            simp [ih hrest h halike]
      · simp only [enter, hkey, if_false] at h
        rw [if_neg hkey]
        exact ih hrest h halike

theorem under_of_isScalar {schema : Schema} {key : String} {context : Context}
    (hsound : Sound schema context) {value : Json} (hscalar : value.isScalar)
    (h : Slots.supplies key context.slots (some value) = false) :
    Slots.under key context.slots (some value) = some value := by
  induction context with
  | nil => rfl
  | cons fitting rest ih =>
      have hrest : Sound schema rest :=
        fun other hother => hsound other (by simp [hother])
      have hfitting := hsound fitting (by simp)
      simp only [slots_cons, Slots.supplies] at h
      simp only [slots_cons, Slots.under]
      by_cases hkey : fitting.key = key
      · rw [if_pos hkey] at h ⊢
        rw [Bool.or_eq_false_iff] at h
        have hfill : fitting.slot.fill (some value) = some value := by
          apply Slot.fill_eq_self
          · intro other hother
            exact (hfitting.accept_eq hother).trans
              (Frame.rework_of_isScalar hscalar)
          · intro hrefused other hdefault
            simp [hrefused, hdefault] at h
        rw [hfill] at h ⊢
        exact ih hrest h.2
      · rw [if_neg hkey] at h ⊢
        exact ih hrest h

end Context

end ShapeMend
