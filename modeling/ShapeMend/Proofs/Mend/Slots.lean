import ShapeMend.Mend.Basic
import ShapeMend.Proofs.Keyed

/-!
# Slots

Seen from the object that holds it, a field is a slot: it accepts what stands
under its key or puts its default there.  A list of fields fills its slots one
after another.  What becomes of one key depends on the slots of that key alone,
and the order of the members changes only by what is added at the end.
-/

namespace ShapeMend

structure Slot where
  /-- The value as the first accepting alternative leaves it. -/
  accept : Json → Option Json
  /-- The default of the last alternative. -/
  fallback : Option Json

def Slot.fill (slot : Slot) (found : Option Json) : Option Json :=
  ((found.bind slot.accept).or slot.fallback).or found

theorem Slot.fill_eq_self {slot : Slot} {value : Json}
    (haccept : ∀ other, slot.accept value = some other → other = value)
    (hfallback : slot.accept value = none →
      ∀ other, slot.fallback = some other → other = value) :
    slot.fill (some value) = some value := by
  unfold Slot.fill
  cases hvalue : slot.accept value with
  | some other => simp [hvalue, haccept other hvalue]
  | none =>
      cases hdefault : slot.fallback with
      | none => simp [hvalue]
      | some other => simp [hvalue, hfallback hvalue other hdefault]

theorem Slot.exists_fill_some (slot : Slot) (value : Json) :
    ∃ other, slot.fill (some value) = some other := by
  unfold Slot.fill
  cases (some value).bind slot.accept with
  | some other => exact ⟨other, rfl⟩
  | none =>
      cases slot.fallback with
      | none => exact ⟨value, rfl⟩
      | some other => exact ⟨other, rfl⟩

theorem Slot.of_fill_eq_some {slot : Slot} {found : Option Json} {value : Json}
    (h : slot.fill found = some value) :
    (∃ old, found = some old ∧ slot.accept old = some value) ∨ slot.fallback =
      some value ∨ found = some value := by
  unfold Slot.fill at h
  rcases Option.or_eq_some_iff.mp h with hmended | ⟨-, hkept⟩
  · rcases Option.or_eq_some_iff.mp hmended with haccepted | ⟨-, hdefault⟩
    · exact .inl (Option.bind_eq_some_iff.mp haccepted)
    · exact .inr (.inl hdefault)
  · exact .inr (.inr hkept)

abbrev Slots := List (String × Slot)

namespace Slots

def fill : Slots → Members → Members
  | [], members => members
  | (key, slot) :: slots, members =>
    match slot.fill (Keyed.lookup key members) with
    | some value => fill slots (Keyed.put key value members)
    | none => fill slots members

def under (key : String) : Slots → Option Json → Option Json
  | [], found => found
  | (name, slot) :: slots, found =>
    under key slots (if name = key then slot.fill found else found)

theorem fill_append (first second : Slots) (members : Members) :
    fill (first ++ second) members = fill second (fill first members) := by
  induction first generalizing members with
  | nil => rfl
  | cons entry slots ih =>
      obtain ⟨key, slot⟩ := entry
      simp only [List.cons_append, fill]
      cases slot.fill (Keyed.lookup key members) with
      | none => exact ih members
      | some value => exact ih _

theorem exists_under_some (key : String) (slots : Slots) (value : Json) :
    ∃ other, under key slots (some value) = some other := by
  induction slots generalizing value with
  | nil => exact ⟨value, rfl⟩
  | cons entry slots ih =>
      obtain ⟨name, slot⟩ := entry
      unfold under
      split
      · obtain ⟨other, hother⟩ := slot.exists_fill_some value
        rw [hother]
        exact ih other
      · exact ih value

private theorem under_eq_none {key : String} {slots : Slots}
    {found : Option Json} (h : under key slots found = none) :
    found = none := by
  cases found with
  | none => rfl
  | some value =>
      obtain ⟨other, hother⟩ := exists_under_some key slots value
      simp [hother] at h

@[simp] theorem fill_nil (members : Members) : fill [] members = members := rfl

def visit (slots : Slots) : Json → Json
  | .object members => .object (fill slots members)
  | value => value

theorem visit_of_isObject_eq_false (slots : Slots) {value : Json}
    (h : value.isObject = false) : visit slots value = value := by
  cases value <;> simp_all [visit, Json.isObject]

@[simp] theorem visit_nil (value : Json) : visit [] value = value := by
  cases value <;> rfl

private theorem visit_append (first second : Slots) (value : Json) :
    visit (first ++ second) value = visit second (visit first value) := by
  cases value <;> simp [visit, fill_append]

def renew (slots : Slots) : Json → Json
  | .array items => .array (items.map (visit slots))
  | value => visit slots value

@[simp] theorem renew_object (slots : Slots) (members : Members) :
    renew slots (.object members) = .object (fill slots members) := rfl

@[simp] theorem renew_array (slots : Slots) (items : List Json) :
    renew slots (.array items) = .array (items.map (visit slots)) := rfl

theorem renew_nil (value : Json) : renew [] value = value := by
  have hvisit : visit [] = id := funext visit_nil
  cases value <;> simp [renew, hvisit]

theorem renew_append (first second : Slots) (value : Json) :
    renew (first ++ second) value = renew second (renew first value) := by
  cases value with
  | object members => simp [fill_append]
  | array items => simp [visit_append]
  | _ => rfl

/-- Whether one of the slots of a key puts its default in the place of what it
finds. -/
def supplies (key : String) : Slots → Option Json → Bool
  | [], _ => false
  | (name, slot) :: slots, found =>
    if name = key then
      (found.bind slot.accept).isNone && slot.fallback.isSome
        || supplies key slots (slot.fill found)
    else supplies key slots found

theorem under_none {key : String} {slots : Slots}
    (h : supplies key slots none = false) : under key slots none = none := by
  induction slots with
  | nil => rfl
  | cons entry slots ih =>
      obtain ⟨name, slot⟩ := entry
      simp only [supplies] at h
      simp only [under]
      by_cases hname : name = key
      · rw [if_pos hname] at h ⊢
        cases hdefault : slot.fallback with
        | none =>
            have hfill : slot.fill none = none := by simp [Slot.fill, hdefault]
            rw [hfill] at h ⊢
            exact ih (Bool.or_eq_false_iff.mp h).2
        | some value => simp [hdefault] at h
      · rw [if_neg hname] at h ⊢
        exact ih h

theorem lookup_fill (key : String) (slots : Slots) (members : Members) :
    Keyed.lookup key (fill slots members) =
      under key slots (Keyed.lookup key members) := by
  induction slots generalizing members with
  | nil => rfl
  | cons entry slots ih =>
      obtain ⟨name, slot⟩ := entry
      simp only [fill, under]
      by_cases hname : name = key
      · subst hname
        cases hfill : slot.fill (Keyed.lookup name members) with
        | none =>
            have habsent : Keyed.lookup name members = none := by
              cases hfound : Keyed.lookup name members with
              | none => rfl
              | some value =>
                  obtain ⟨other, hother⟩ := slot.exists_fill_some value
                  simp [hfound, hother] at hfill
            simp [ih, habsent]
        | some value => simp [ih, Keyed.lookup_put_self]
      · cases slot.fill (Keyed.lookup name members) with
        | none => simp [ih, hname]
        | some value =>
            simp [ih, hname, Keyed.lookup_put_of_ne (Ne.symm hname)]

/-! ## Members that stay as they are -/

def without (key : String) (slots : Slots) : Slots := slots.filter (·.1 ≠ key)

private theorem under_without {key other : String} (hne : other ≠ key)
    (slots : Slots) (found : Option Json) :
    under other (without key slots) found = under other slots found := by
  induction slots generalizing found with
  | nil => rfl
  | cons entry slots ih =>
      obtain ⟨name, slot⟩ := entry
      by_cases hname : name = key
      · have hother : name ≠ other := fun h => hne (h.symm.trans hname)
        simpa [without, hname, under, hother, Ne.symm hne] using ih found
      · simpa [without, hname, under] using ih _

private theorem under_without_self (key : String) (slots : Slots)
    (found : Option Json) : under key (without key slots) found = found := by
  induction slots with
  | nil => rfl
  | cons entry slots ih =>
      obtain ⟨name, slot⟩ := entry
      by_cases hname : name = key
      · simpa [without, hname] using ih
      · simpa [without, hname, under] using ih

/-- The first member of a key is changed in its place, and the slots of that key
do nothing else. -/
private theorem fill_cons (key : String) (value : Json) (slots : Slots)
    (members : Members) :
    fill slots ((key, value) :: members) =
      (key, (under key slots (some value)).getD value) ::
        fill (without key slots) members := by
  induction slots generalizing value members with
  | nil => rfl
  | cons entry slots ih =>
      obtain ⟨name, slot⟩ := entry
      by_cases hname : name = key
      · subst hname
        obtain ⟨other, hother⟩ := slot.exists_fill_some value
        obtain ⟨last, hlast⟩ := exists_under_some name slots other
        simp [fill, under, without, Keyed.lookup, Keyed.put, hother, ih, hlast]
      · have hkey : key ≠ name := Ne.symm hname
        simp only [fill, under, without, Keyed.lookup, hkey, hname, if_false]
        cases hfill : slot.fill (Keyed.lookup name members) with
        | none => simpa [fill, without, hname, hfill] using ih value members
        | some found =>
            simpa [fill, without, hname, hfill, Keyed.put, hkey]
              using ih value _

private theorem fill_nil_eq_nil {slots : Slots}
    (h : ∀ key, under key slots none = none) : fill slots [] = [] := by
  induction slots with
  | nil => rfl
  | cons entry slots ih =>
      obtain ⟨name, slot⟩ := entry
      have hslot : slot.fill none = none := by
        have hname := h name
        simp only [under, if_true] at hname
        exact under_eq_none hname
      have htail : ∀ key, under key slots none = none := by
        intro key
        have hkey := h key
        simp only [under, hslot, ite_self] at hkey
        exact hkey
      simp [fill, Keyed.lookup, hslot, ih htail]

/-- Members under which every slot leaves what it finds are left alone as a
whole. -/
private theorem fill_eq_self {slots : Slots} {members : Members}
    (h : ∀ key,
      under key slots (Keyed.lookup key members) = Keyed.lookup key members) :
    fill slots members = members := by
  induction members generalizing slots with
  | nil => exact fill_nil_eq_nil h
  | cons entry members ih =>
      obtain ⟨name, value⟩ := entry
      have hvalue : under name slots (some value) = some value := by
        simpa [Keyed.lookup] using h name
      have htail : fill (without name slots) members = members := by
        apply ih
        intro key
        by_cases hkey : key = name
        · subst hkey
          exact under_without_self key slots _
        · rw [under_without hkey]
          simpa [Keyed.lookup, Ne.symm hkey] using h key
      simp [fill_cons, hvalue, htail]

theorem fill_fill_iff (slots : Slots) (members : Members) :
    fill slots (fill slots members) = fill slots members ↔
      ∀ key, under key slots (under key slots (Keyed.lookup key members)) =
        under key slots (Keyed.lookup key members) := by
  constructor
  · intro h key
    have hlookup := congrArg (Keyed.lookup key) h
    simpa only [lookup_fill] using hlookup
  · intro h
    apply fill_eq_self
    intro key
    rw [lookup_fill]
    exact h key

/-! ## Distinct keys -/

theorem under_of_not_mem {key : String} {slots : Slots}
    (h : key ∉ Keyed.keys slots) (found : Option Json) :
    under key slots found = found := by
  induction slots with
  | nil => rfl
  | cons entry slots ih =>
      obtain ⟨name, slot⟩ := entry
      simp only [Keyed.keys, List.map_cons, List.mem_cons, not_or] at h
      simp only [under, if_neg (Ne.symm h.1)]
      exact ih h.2

private theorem supplies_of_not_mem {key : String} {slots : Slots}
    (h : key ∉ Keyed.keys slots) (found : Option Json) :
    supplies key slots found = false := by
  induction slots with
  | nil => rfl
  | cons entry slots ih =>
      obtain ⟨name, slot⟩ := entry
      simp only [Keyed.keys, List.map_cons, List.mem_cons, not_or] at h
      simp only [supplies, if_neg (Ne.symm h.1)]
      exact ih h.2

theorem under_of_mem {key : String} {slot : Slot} {slots : Slots}
    (hdistinct : (Keyed.keys slots).Nodup) (h : (key, slot) ∈ slots)
    (found : Option Json) : under key slots found = slot.fill found := by
  induction slots with
  | nil => simp at h
  | cons entry slots ih =>
      obtain ⟨name, other⟩ := entry
      simp only [Keyed.keys, List.map_cons, List.nodup_cons] at hdistinct
      rcases List.mem_cons.mp h with hhead | htail
      · obtain ⟨rfl, rfl⟩ := Prod.mk.inj hhead
        simp only [under, if_true]
        exact under_of_not_mem hdistinct.1 _
      · have hname : name ≠ key := by
          rintro rfl
          exact hdistinct.1 (List.mem_map_of_mem (f := (·.1)) htail)
        simp only [under, if_neg hname]
        exact ih hdistinct.2 htail

private theorem supplies_of_mem {key : String} {slot : Slot} {slots : Slots}
    (hdistinct : (Keyed.keys slots).Nodup) (h : (key, slot) ∈ slots)
    (found : Option Json) :
    supplies key slots found =
      ((found.bind slot.accept).isNone && slot.fallback.isSome) := by
  induction slots with
  | nil => simp at h
  | cons entry slots ih =>
      obtain ⟨name, other⟩ := entry
      simp only [Keyed.keys, List.map_cons, List.nodup_cons] at hdistinct
      rcases List.mem_cons.mp h with hhead | htail
      · obtain ⟨rfl, rfl⟩ := Prod.mk.inj hhead
        simp only [supplies, if_true]
        rw [supplies_of_not_mem hdistinct.1, Bool.or_false]
      · have hname : name ≠ key := by
          rintro rfl
          exact hdistinct.1 (List.mem_map_of_mem (f := (·.1)) htail)
        simp only [supplies, if_neg hname]
        exact ih hdistinct.2 htail

/-- Keys that are not repeated are added at the end and in order, where the slot
supplies a default. -/
theorem keys_fill {slots : Slots} (hdistinct : (Keyed.keys slots).Nodup)
    (members : Members) :
    Keyed.keys (fill slots members) =
      Keyed.keys members ++ Keyed.keys (slots.filter fun entry =>
        entry.2.fallback.isSome ∧ entry.1 ∉ Keyed.keys members) := by
  induction slots generalizing members with
  | nil => simp
  | cons entry slots ih =>
      obtain ⟨key, slot⟩ := entry
      rw [Keyed.keys_cons, List.nodup_cons] at hdistinct
      by_cases hkey : key ∈ Keyed.keys members
      · obtain ⟨value, hvalue⟩ :=
          Option.isSome_iff_exists.mp (Keyed.isSome_lookup_iff.mpr hkey)
        obtain ⟨other, hother⟩ := slot.exists_fill_some value
        simp only [fill, hvalue, hother]
        rw [ih hdistinct.2, Keyed.keys_put, if_pos hkey]
        simp [hkey]
      · have hmissing : Keyed.lookup key members = none := by
          rw [← Option.not_isSome_iff_eq_none, Keyed.isSome_lookup_iff]
          exact hkey
        have hfill : slot.fill none = slot.fallback := by simp [Slot.fill]
        simp only [fill, hmissing, hfill]
        cases hdefault : slot.fallback with
        | none =>
            rw [ih hdistinct.2]
            simp [hdefault]
        | some default =>
            have hlater : ∀ later ∈ slots, later.1 ≠ key := by
              rintro later hlater rfl
              exact hdistinct.1 (List.mem_map_of_mem (f := (·.1)) hlater)
            rw [ih hdistinct.2, Keyed.keys_put, if_neg hkey,
              List.filter_cons_of_pos (by simp [hdefault, hkey]),
              Keyed.keys_cons, List.append_assoc, List.singleton_append]
            congr 3
            apply List.filter_congr
            intro later hmem
            simp [hlater later hmem]

theorem under_under_of_keepsOwn {slots : Slots}
    (hdistinct : (Keyed.keys slots).Nodup)
    (hkeeps : ∀ entry ∈ slots, ∀ default,
      entry.2.fallback = some default → entry.2.fill (some default) =
      some default)
    (key : String) {found : Option Json}
    (h : found = none ∨ supplies key slots found = true) :
    under key slots (under key slots found) = under key slots found := by
  by_cases hkey : key ∈ Keyed.keys slots
  · obtain ⟨⟨name, slot⟩, hmem, rfl⟩ := List.mem_map.mp hkey
    simp only [under_of_mem hdistinct hmem, supplies_of_mem hdistinct hmem]
      at h ⊢
    have hrefused : found.bind slot.accept = none := by
      rcases h with rfl | h
      · rfl
      · simpa using (Bool.and_eq_true_iff.mp h).1
    cases hdefault : slot.fallback with
    | some default =>
        have hfill : slot.fill found = some default := by
          simp [Slot.fill, hrefused, hdefault]
        rw [hfill]
        exact hkeeps _ hmem default hdefault
    | none =>
        have hfill : slot.fill found = found := by
          simp [Slot.fill, hrefused, hdefault]
        rw [hfill, hfill]
  · simp only [under_of_not_mem hkey]

end Slots

end ShapeMend
