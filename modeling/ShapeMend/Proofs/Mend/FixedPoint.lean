import ShapeMend.Proofs.Mend.Idempotence

/-!
# Mending settles

With distinct keys a default is mended again by its own field alone.  If no
earlier alternative of that field would mend it by other fields, the default
comes back unchanged, by induction on the frames that made it.
-/

namespace ShapeMend

open Json

namespace Frame

variable (schema : Schema)

def Within (frame : Frame) : Prop :=
  ∃ declaration ∈ schema.declarations, frame.fields ∈ declaration.fieldLists

def KeepsOwn (frame : Frame) : Prop :=
  ∀ fitting ∈ frame.context schema, ∀ default,
    fitting.slot.fallback = some default →
    fitting.slot.fill (some default) = some default

variable {schema} (frame : Frame) (location : List Nat)

theorem within_ofDeclaration {declaration : Declaration}
    (hmem : declaration ∈ schema.declarations) (depth : Nat) (trail : Trail) :
    (ofDeclaration declaration depth trail).Within schema :=
  ⟨declaration, hmem, by simp [ofDeclaration, Declaration.fieldLists]⟩

/-- An object inside is visited by a declaration reached through fewer others,
or by fields that are written out in an alternative. -/
theorem enter_eq_some {shape : Shape} {inner : Frame}
    (h : enter schema frame location shape = some inner) :
    (inner.depth = frame.depth ∧ shape = .inline inner.fields) ∨
      (inner.depth < frame.depth ∧ ∃ declaration ∈ schema.declarations,
        inner.fields = declaration.fields) := by
  cases shape with
  | primitive primitive => simp [enter] at h
  | literal literal => simp [enter] at h
  | inline fields =>
      simp only [enter] at h
      split at h
      · simp at h
      · simp only [Option.some.injEq] at h
        subst h
        exact .inl ⟨rfl, rfl⟩
  | reference name =>
      cases hfind : schema.find? name with
      | none => simp [enter, hfind] at h
      | some declaration =>
          cases hdepth : frame.depth with
          | zero => simp [enter, hfind, hdepth] at h
          | succ depth =>
              simp only [enter, hfind, hdepth] at h
              split at h
              · simp only [Option.some.injEq] at h
                subst h
                exact .inr ⟨Nat.lt_succ_self depth, declaration,
                  (Schema.mem_of_find?_eq_some hfind).1, rfl⟩
              · simp at h

theorem within_of_enter (hwithin : frame.Within schema) {field : Field}
    (hfield : field ∈ frame.fields) {alternative : Alternative}
    (halternative : alternative ∈ field.alternatives) {inner : Frame}
    (h : enter schema frame location alternative.shape = some inner) :
    inner.Within schema := by
  rcases enter_eq_some frame location h
    with ⟨_, hshape⟩ | ⟨_, declaration, hmem, hfields⟩
  · obtain ⟨declaration, hmem, hlist⟩ := hwithin
    exact ⟨declaration, hmem,
      declaration.mem_fieldLists_of_inline hlist hfield halternative hshape⟩
  · exact ⟨declaration, hmem, by simp [hfields, Declaration.fieldLists]⟩

/-- What holds of a frame as soon as it holds of the frames inside holds of
every frame of the schema: the frames inside follow references through fewer
declarations, or hold fewer fields. -/
theorem of_inside {motive : Frame → Prop}
    (step : ∀ frame : Frame, frame.Within schema → (∀ field ∈ frame.fields,
      ∀ alternative ∈ field.alternatives, ∀ location inner,
      enter schema frame location alternative.shape = some inner →
      inner.Within schema ∧ motive inner) → motive frame)
    (frame : Frame) (hwithin : frame.Within schema) : motive frame := by
  apply step frame hwithin
  intro field hfield alternative halternative location inner henter
  have hinner :=
    within_of_enter frame location hwithin hfield halternative henter
  have hdecrease : inner.depth < frame.depth ∨
      inner.depth = frame.depth ∧
        sizeOf inner.fields < sizeOf frame.fields := by
    rcases enter_eq_some frame location henter
      with ⟨hdepth, hshape⟩ | ⟨hdepth, _⟩
    · exact .inr ⟨hdepth, sizeOf_lt_of_inline hfield halternative hshape⟩
    · exact .inl hdepth
  exact ⟨hinner, of_inside step inner hinner⟩
termination_by (frame.depth, sizeOf frame.fields)
decreasing_by
  rcases hdecrease with hdepth | ⟨hdepth, hsize⟩
  · exact Prod.Lex.left _ _ hdepth
  · exact hdepth ▸ Prod.Lex.right _ hsize

theorem keys_slots :
    Keyed.keys (frame.context schema).slots = frame.fields.map (·.key) := by
  unfold context
  generalize frame.fields = fields
  generalize 0 = index
  induction fields generalizing index with
  | nil => rfl
  | cons field fields ih =>
      have htail := ih (index + 1)
      simp_all [fittings, fitting, Context.slots, Keyed.keys]

theorem nodup_keys_slots (hdistinct : schema.DistinctKeys)
    (hwithin : frame.Within schema) :
    (Keyed.keys (frame.slots schema)).Nodup := by
  obtain ⟨declaration, hmem, hlist⟩ := hwithin
  rw [← Context.slots_context, keys_slots]
  exact hdistinct declaration hmem _ hlist

theorem KeepsOwn.under_under {frame : Frame} (hkeeps : frame.KeepsOwn schema)
    (hdistinct : (frame.fields.map (·.key)).Nodup) (key : String)
    {found : Option Json}
    (h : found = none ∨
      Slots.supplies key (frame.context schema).slots found = true) :
    Slots.under key (frame.context schema).slots
      (Slots.under key (frame.context schema).slots found) =
      Slots.under key (frame.context schema).slots found := by
  apply Slots.under_under_of_keepsOwn
  · rw [keys_slots]
    exact hdistinct
  · intro entry hentry
    obtain ⟨fitting, hfitting, rfl⟩ := List.mem_map.mp hentry
    exact hkeeps fitting hfitting
  · exact h

private theorem KeepsOwn.fill_fill_nil {frame : Frame}
    (hkeeps : frame.KeepsOwn schema)
    (hdistinct : (frame.fields.map (·.key)).Nodup) :
    Slots.fill (frame.slots schema) (Slots.fill (frame.slots schema) []) =
      Slots.fill (frame.slots schema) [] := by
  rw [← Context.slots_context, Slots.fill_fill_iff]
  intro key
  exact hkeeps.under_under hdistinct key (.inl rfl)

/-- If the earlier alternatives leave objects alone, an object is visited under
the last one or not at all. -/
private theorem chosen_concat {earlier : List Alternative} (last : Alternative)
    (hearlier : ∀ alternative ∈ earlier, alternative.isArray = false →
      schema.namesFields alternative.shape = false) (index : Nat) :
    chosen schema frame location false index (earlier ++ [last]) = none ∨
      chosen schema frame location false index (earlier ++ [last]) =
        enter schema frame ((index + earlier.length) :: location)
          last.shape := by
  induction earlier generalizing index with
  | nil =>
      simp only [List.nil_append, chosen, inside, List.length_nil, Nat.add_zero]
      repeat' split
      all_goals simp
  | cons alternative earlier ih =>
      have htail :=
        ih (fun other hother => hearlier other (by simp [hother])) (index + 1)
      rw [Nat.add_assoc, Nat.add_comm 1] at htail
      simp only [List.cons_append, chosen, List.length_cons]
      split
      · left
        unfold inside
        split
        · next hflat =>
            exact enter_eq_none frame _ (hearlier alternative (by simp) hflat)
        · rfl
      · exact htail

private theorem exists_of_chosen {isList : Bool} {index : Nat}
    {alternatives : List Alternative} {inner : Frame}
    (h : chosen schema frame location isList index alternatives = some inner) :
    ∃ alternative ∈ alternatives, ∃ place,
      enter schema frame place alternative.shape = some inner := by
  induction alternatives generalizing index with
  | nil => simp [chosen] at h
  | cons alternative rest ih =>
      simp only [chosen, inside] at h
      split at h
      · split at h
        · exact ⟨alternative, by simp, _, h⟩
        · simp at h
      · obtain ⟨other, hother, place, hplace⟩ := ih h
        exact ⟨other, by simp [hother], place, hplace⟩

/-- An object made by the last alternative is not changed by the first one that
accepts it. -/
private theorem rework_object_default {earlier : List Alternative}
    {last : Alternative}
    (hearlier : ∀ alternative ∈ earlier,
      alternative.isArray = false →
      schema.namesFields alternative.shape = false)
    (hinner : ∀ inner,
      enter schema frame ((0 + earlier.length) :: location) last.shape =
      some inner → Slots.fill (inner.slots schema)
      (Slots.fill (inner.slots schema) []) = Slots.fill (inner.slots schema) [])
    {default : Json}
    (hdefault : default =
      Slots.visit (insideSlots schema
        (enter schema frame ((0 + earlier.length) :: location) last.shape))
      (.object [])) :
    rework schema
      (fun isList => chosen schema frame location isList 0 (earlier ++ [last]))
      default = default := by
  have hobject : Alike (hollow false) default := by
    rw [hdefault]
    exact Slots.visit_alike ..
  rw [rework_of_alike hobject]
  rcases chosen_concat frame location last hearlier 0 with hchosen | hchosen
  · rw [hchosen]
    exact Slots.renew_nil default
  · rw [hchosen, hdefault]
    cases henter :
      enter schema frame ((0 + earlier.length) :: location) last.shape with
    | none => simp [insideSlots]
    | some inner => simp [insideSlots, Slots.visit, hinner inner henter]

private theorem keepsOwn_of_inside (hplain : schema.LiteralUnionsPlain)
    (hlast : ∀ field ∈ frame.fields, schema.LastIsFirst field.alternatives)
    (hinside : ∀ field ∈ frame.fields, ∀ alternative ∈ field.alternatives,
      ∀ location inner, enter schema frame location alternative.shape =
      some inner →
      Slots.fill (inner.slots schema) (Slots.fill (inner.slots schema) []) =
      Slots.fill (inner.slots schema) []) : frame.KeepsOwn schema := by
  intro fitting hfitting default hdefault
  have hsound := sound_context hplain frame fitting hfitting
  obtain ⟨index, field, hfield, rfl⟩ := mem_context hfitting
  apply Slot.fill_eq_self
  · intro other hother
    rw [hsound.accept_eq hother]
    rcases List.eq_nil_or_concat field.alternatives
      with hnil | ⟨earlier, last, hconcat⟩
    · simp [Frame.fitting, Mend.slot, hnil] at hdefault
    · rw [List.concat_eq_append] at hconcat
      have hmem : last ∈ field.alternatives := by simp [hconcat]
      simp only [Frame.fitting, Mend.slot, hconcat,
        Mend.value_lastFallback_concat, Option.some.injEq, Mend.standIn]
        at hdefault
      cases hflat : last.isArray with
      | true =>
          simp only [hflat, if_true] at hdefault
          simp [← hdefault, rework]
      | false =>
          simp only [hflat, Bool.false_eq_true, if_false] at hdefault
          cases hkind : schema.defaultsToObject last.shape with
          | false =>
              apply rework_of_isScalar
              rw [← hdefault]
              exact isScalar_fallback frame _ hplain hkind
          | true =>
              simp only [Frame.fitting, hconcat]
              rw [value_fallback_object frame _ hkind] at hdefault
              have hearlier :=
                hlast field hfield last (by simp [hconcat]) hflat hkind
              rw [hconcat, List.dropLast_concat] at hearlier
              exact rework_object_default frame _ hearlier
                (hinside field hfield last hmem _) hdefault.symm
  · intro _ other hother
    exact Option.some.inj (hother.symm.trans hdefault)

private theorem keepsOwn (hplain : schema.LiteralUnionsPlain)
    (hdistinct : schema.DistinctKeys) (hlast : schema.ObjectsLast)
    (frame : Frame) (hwithin : frame.Within schema) :
    frame.KeepsOwn schema := by
  refine of_inside ?_ frame hwithin
  intro frame hwithin hinside
  obtain ⟨declaration, hmem, hlist⟩ := hwithin
  apply keepsOwn_of_inside frame hplain (hlast declaration hmem _ hlist)
  intro field hfield alternative halternative location inner henter
  obtain ⟨⟨owner, howner, hinnerList⟩, hkeeps⟩ :=
    hinside field hfield alternative halternative location inner henter
  exact hkeeps.fill_fill_nil (hdistinct owner howner _ hinnerList)

end Frame

/-! ## Reachable contexts -/

namespace Context

variable {schema : Schema}

private theorem enter_of_not_mem {key : String} (isList : Bool)
    {context : Context} (h : key ∉ Keyed.keys context.slots) :
    enter schema key isList context = some [] := by
  induction context with
  | nil => rfl
  | cons fitting rest ih =>
      simp only [slots_cons, Keyed.keys, List.map_cons, List.mem_cons, not_or]
        at h
      simp only [enter, if_neg (Ne.symm h.1)]
      exact ih h.2

private theorem eq_of_enter {key : String} {isList : Bool}
    {context inner : Context} (hdistinct : (Keyed.keys context.slots).Nodup)
    (h : enter schema key isList context = some inner) :
    inner = [] ∨ ∃ fitting ∈ context,
      inner = ofInside schema (fitting.inside isList) := by
  induction context with
  | nil =>
      left
      simpa [enter] using h.symm
  | cons fitting rest ih =>
      simp only [slots_cons, Keyed.keys, List.map_cons, List.nodup_cons]
        at hdistinct
      by_cases hkey : fitting.key = key
      · have hrest : enter schema key isList rest = some [] := by
          apply enter_of_not_mem
          rw [← hkey]
          exact hdistinct.1
        simp only [enter, if_pos hkey, hrest] at h
        split at h
        · right
          refine ⟨fitting, by simp, ?_⟩
          simpa using h.symm
        · simp at h
        · left
          exact (Option.some.inj h).symm
      · simp only [enter, if_neg hkey] at h
        rcases ih hdistinct.2 h with hnil | ⟨other, hother, hinner⟩
        · exact .inl hnil
        · exact .inr ⟨other, by simp [hother], hinner⟩

def Single (schema : Schema) (context : Context) : Prop :=
  ∃ inside : Option Frame, (∀ frame ∈ inside, frame.Within schema) ∧
    context = ofInside schema inside

private theorem single_nil : Single schema [] := ⟨none, by simp, rfl⟩

private theorem single_enter (hdistinct : schema.DistinctKeys) {key : String}
    {isList : Bool} {context inner : Context} (hsingle : Single schema context)
    (h : enter schema key isList context = some inner) :
    Single schema inner := by
  obtain ⟨inside, hwithin, rfl⟩ := hsingle
  cases inside with
  | none =>
      obtain rfl : inner = [] := by simpa [ofInside, enter] using h.symm
      exact single_nil
  | some frame =>
      have hframe := hwithin frame rfl
      obtain ⟨declaration, hmem, hlist⟩ := id hframe
      have hkeys : (Keyed.keys (frame.context schema).slots).Nodup := by
        rw [Frame.keys_slots]
        exact hdistinct declaration hmem _ hlist
      rcases eq_of_enter hkeys h with rfl | ⟨fitting, hfitting, rfl⟩
      · exact single_nil
      · obtain ⟨index, field, hfield, rfl⟩ := Frame.mem_context hfitting
        refine ⟨_, ?_, rfl⟩
        intro inner hinner
        obtain ⟨alternative, halternative, location, henter⟩ :=
          Frame.exists_of_chosen frame _ hinner
        exact Frame.within_of_enter frame location hframe hfield
          halternative henter

private theorem single_of_reaches (hdistinct : schema.DistinctKeys)
    {context last : Context} (hreaches : Reaches schema context last)
    (hsingle : Single schema context) : Single schema last := by
  induction hreaches with
  | here context => exact hsingle
  | inside key isList henter _ ih =>
      exact ih (single_enter hdistinct hsingle henter)

private theorem Single.keepsDefaults (hplain : schema.LiteralUnionsPlain)
    (hdistinct : schema.DistinctKeys) (hlast : schema.ObjectsLast)
    {context : Context} (hsingle : Single schema context) :
    KeepsDefaults schema context := by
  intro last hreaches
  obtain ⟨inside, hwithin, rfl⟩ := single_of_reaches hdistinct hreaches hsingle
  intro key found hsupplies
  cases inside with
  | none => simp [ofInside, slots, Slots.supplies] at hsupplies
  | some frame =>
      have hframe := hwithin frame rfl
      obtain ⟨declaration, hmem, hlist⟩ := id hframe
      exact (Frame.keepsOwn hplain hdistinct hlast frame hframe).under_under
        (hdistinct declaration hmem _ hlist) key (.inr hsupplies)

end Context

namespace Schema

variable {schema : Schema} {declaration : Declaration}

/-- With distinct keys and plain literal unions, a schema whose fields keep the
objects that they supply mends every value at once. -/
theorem mend_mend (hdistinct : schema.DistinctKeys) (hlast : schema.ObjectsLast)
    (hplain : schema.LiteralUnionsPlain) {name : String}
    (hfind : schema.find? name = some declaration) (isArray : Bool)
    (value : Json) :
    (schema.mend declaration isArray
      (schema.mend declaration isArray value).value).value =
      (schema.mend declaration isArray value).value := by
  have hmem := (mem_of_find?_eq_some hfind).1
  have hsingle : Context.Single schema (declaration.context schema) := by
    refine ⟨some
      (Frame.ofDeclaration declaration schema.declarations.length []), ?_, rfl⟩
    rintro frame hframe
    obtain rfl := Option.some.inj hframe
    exact Frame.within_ofDeclaration hmem _ _
  refine (mend_mend_iff_keepsDefaults hplain hmem).mpr ?_ isArray value
  intro _
  exact hsingle.keepsDefaults hplain hdistinct hlast

/-- Posts that answer each other, with a name that is not declared, a field that
admits nothing and a literal union without literals. -/
def posts : Schema where
  declarations := [
    { name := "Post"
      kind := .interface
      exported := true
      fields := [
        ⟨"state", false, [⟨.reference "State", false⟩]⟩,
        ⟨"answer", true,
          [⟨.literal (.boolean false), false⟩, ⟨.reference "Post", false⟩]⟩,
        ⟨"author", false,
          [⟨.inline [⟨"id", false, [⟨.primitive .bigint, false⟩]⟩], false⟩]⟩,
        ⟨"marks", false,
          [⟨.reference "Mark", true⟩, ⟨.reference "Mark", false⟩]⟩,
        ⟨"rest", false, []⟩] },
    { name := "State"
      kind := .literalUnion
      exported := false
      fields := [⟨"State", false, [⟨.literal (.string "open"), false⟩]⟩] },
    { name := "Nothing"
      kind := .literalUnion
      exported := false
      fields := [] }]
  distinct := by decide

theorem mend_mend_posts :
    posts.DistinctKeys ∧ posts.ObjectsLast ∧ posts.LiteralUnionsPlain ∧
      posts.find? "Post" = posts.declarations[0]? ∧
      ∀ declaration, posts.find? "Post" = some declaration →
        (posts.mend declaration false (posts.mend declaration false
          (.object [("answer", .object []), ("rest", .null)])).value).value =
          (posts.mend declaration false
            (.object [("answer", .object []), ("rest", .null)])).value :=
  ⟨by decide +kernel, by decide +kernel, by decide +kernel, rfl, fun _ hfind =>
    mend_mend (by decide +kernel) (by decide +kernel) (by decide +kernel) hfind
      false _⟩

end Schema

end ShapeMend
