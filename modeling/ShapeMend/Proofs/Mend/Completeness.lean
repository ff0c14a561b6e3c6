import ShapeMend.Proofs.Mend.FixedPoint
import ShapeMend.Proofs.Schema.Literals
import ShapeMend.Proofs.Schema.Merge

/-!
# Mending completes

An object is complete if it has a fitting value under the key of every field,
and what fits a shape that names fields is complete in turn, down to the shapes
that are being mended already.  Mending makes every object complete, be it one
that was there or one that is made as a default: the shapes inside are entered
with a longer trail, and there is an entry for every shape that is not on the
trail.
-/

namespace ShapeMend

open Json

/-! ## Values of literals -/

def JsonNumber.Is : JsonNumber → Number.Binary64 → Prop
  | .integer written, value => value.toInt? = some written
  | .real written, value => written.sameValue value

/-- A value that is exactly the literal. -/
def Literal.Is : Literal → Json → Prop
  | .string text, .string written => written = text
  | .number value, .number written => written.Is value
  | .boolean value, .bool written => written = value
  | _, _ => False

/-- A value equal to a literal as binary64 numbers are, or null for a number
that JSON does not have. -/
def Literal.StandsFor (literal : Literal) (value : Json) : Prop :=
  literal.accepts value ∨ literal.isFinite = false ∧ value = .null

theorem Literal.standsFor_toJson (literal : Literal) :
    literal.StandsFor literal.toJson := by
  cases hfinite : literal.isFinite with
  | true => exact .inl (accepts_toJson hfinite)
  | false =>
      cases literal with
      | number value =>
          exact .inr ⟨hfinite, numberToJson_of_isFinite_eq_false hfinite⟩
      | notANumber => exact .inr ⟨hfinite, rfl⟩
      | _ => simp [isFinite] at hfinite

/-! ## Complete objects -/

/-- A place where fields are written out, reached with a trail. -/
structure Spot where
  owner : String
  location : List Nat
  trail : Trail

namespace Spot

def site (spot : Spot) : Site := .inline spot.owner spot.location

/-- The spot of the field, or of the alternative, at an index. -/
def inside (spot : Spot) (index : Nat) : Spot :=
  { spot with location := index :: spot.location }

def enter (spot : Spot) : Spot := { spot with trail := spot.site :: spot.trail }

def follow (spot : Spot) (declaration : Declaration) : Spot :=
  ⟨declaration.name, [], declaration.site :: spot.trail⟩

end Spot

mutual

/-- An object with a fitting value under the key of every field.  The fields are
counted from the index, and a value `stands` for a literal. -/
inductive Complete (schema : Schema) (stands : Literal → Json → Prop) :
    Spot → Nat → List Field → Members → Prop
  | nil {spot : Spot} {index : Nat} {members : Members} :
      Complete schema stands spot index [] members
  | cons {spot : Spot} {index : Nat} {field : Field} {rest : List Field}
      {members : Members}
      {value : Json} {place : Nat} {alternative : Alternative}
      (hvalue : Keyed.lookup field.key members = some value)
      (halternative : field.alternatives[place]? = some alternative)
      (hfits :
      Fits schema stands ((spot.inside index).inside place) alternative value)
      (hrest : Complete schema stands spot (index + 1) rest members) :
      Complete schema stands spot index (field :: rest) members

/-- A value that fits an alternative.  Of the elements of a list only the
objects are looked into. -/
inductive Fits (schema : Schema) (stands : Literal → Json → Prop) :
    Spot → Alternative → Json → Prop
  | list {spot : Spot} {shape : Shape} {items : List Json}
      (hitems : schema.namesFields shape → ∀ item ∈ items, item.isObject →
        Suits schema stands spot shape item) :
      Fits schema stands spot ⟨shape, true⟩ (.array items)
  | noList {spot : Spot} {shape : Shape} {value : Json}
      (hshape : schema.defaultsToObject shape) (hvalue : value.kind ≠ .array) :
      Fits schema stands spot ⟨shape, true⟩ value
  | primitive {spot : Spot} {primitive : Primitive} {value : Json}
      (h : primitive.admits value.kind ∨ value = primitive.fallback) :
      Fits schema stands spot ⟨.primitive primitive, false⟩ value
  | literal {spot : Spot} {literal : Literal} {value : Json}
      (h : stands literal value) :
      Fits schema stands spot ⟨.literal literal, false⟩ value
  | undeclared {spot : Spot} {name : String} {value : Json}
      (hfind : schema.find? name = none) :
      Fits schema stands spot ⟨.reference name, false⟩ value
  | union {spot : Spot} {name : String} {declaration : Declaration}
      {literal : Literal}
      {value : Json} (hfind : schema.find? name = some declaration)
      (hkind : declaration.kind.isObject = false)
      (hliteral : ⟨.literal literal, false⟩ ∈ declaration.unionAlternatives)
      (h : stands literal value) :
      Fits schema stands spot ⟨.reference name, false⟩ value
  | one {spot : Spot} {shape : Shape} {value : Json}
      (h : Suits schema stands spot shape value) :
      Fits schema stands spot ⟨shape, false⟩ value

/-- A value under a shape that names fields: no object, or any for a shape on
the trail, or a complete object. -/
inductive Suits (schema : Schema) (stands : Literal → Json → Prop) :
    Spot → Shape → Json → Prop
  | other {spot : Spot} {shape : Shape} {value : Json}
      (hshape : schema.namesFields shape)
      (hvalue : value.isObject = false) : Suits schema stands spot shape value
  | inlineAgain {spot : Spot} {fields : List Field} {value : Json}
      (h : spot.site ∈ spot.trail) :
      Suits schema stands spot (.inline fields) value
  | inline {spot : Spot} {fields : List Field} {members : Members}
      (h : Complete schema stands spot.enter 0 fields members) :
      Suits schema stands spot (.inline fields) (.object members)
  | declaredAgain {spot : Spot} {name : String} {declaration : Declaration}
      {value : Json}
      (hfind : schema.find? name = some declaration)
      (hkind : declaration.kind.isObject)
      (h : declaration.site ∈ spot.trail) :
      Suits schema stands spot (.reference name) value
  | declared {spot : Spot} {name : String} {declaration : Declaration}
      {members : Members}
      (hfind : schema.find? name = some declaration)
      (hkind : declaration.kind.isObject)
      (h : Complete schema stands (spot.follow declaration) 0 declaration.fields
      members) :
      Suits schema stands spot (.reference name) (.object members)

end

private theorem Complete.of_forall {schema : Schema}
    {stands : Literal → Json → Prop} {spot : Spot} {index : Nat}
    {fields : List Field} {members : Members}
    (h : ∀ (count : Nat) (field : Field), fields[count]? = some field → ∃ value,
      Keyed.lookup field.key members = some value ∧
      ∃ (place : Nat) (alternative : Alternative), field.alternatives[place]? =
      some alternative ∧
      Fits schema stands ((spot.inside (index + count)).inside place)
      alternative value) :
    Complete schema stands spot index fields members := by
  induction fields generalizing index with
  | nil => exact .nil
  | cons field rest ih =>
      obtain ⟨value, hvalue, place, alternative, halternative, hfits⟩ :=
        h 0 field rfl
      refine .cons hvalue halternative hfits (ih fun count other hother => ?_)
      have hlater := h (count + 1) other hother
      rwa [Nat.add_comm count 1, ← Nat.add_assoc] at hlater

namespace Schema

variable (schema : Schema)

/-- Every field of every list has an alternative. -/
def FieldsFilled : Prop :=
  ∀ declaration ∈ schema.declarations, ∀ fields ∈ declaration.fieldLists,
    ∀ field ∈ fields, field.alternatives ≠ []

instance : Decidable schema.FieldsFilled :=
  inferInstanceAs (Decidable (∀ declaration ∈ schema.declarations, _))

/-- Literal unions are one field of literals. -/
def UnionsOfLiterals : Prop :=
  schema.LiteralUnionsPlain ∧
    ∀ declaration ∈ schema.declarations, declaration.kind.isObject = false →
      declaration.fields.length = 1

instance : Decidable schema.UnionsOfLiterals :=
  inferInstanceAs (Decidable (_ ∧ ∀ declaration ∈ schema.declarations, _))

def unvisited (trail : Trail) : List Declaration :=
  schema.declarations.filter fun declaration => declaration.site ∉ trail

end Schema

/-! ## Alternatives at work -/

namespace Mend

variable (references : References) (owner : String) (location : List Nat)
  (trail : Trail)

theorem exists_of_firstAccepted {index : Nat} {alternatives : List Alternative}
    {value other : Json}
    (h :
      (firstAccepted references owner location trail index alternatives
      value).value = some other) :
    ∃ (place : Nat) (alternative : Alternative),
      alternatives[place]? = some alternative ∧
      receive references owner ((index + place) :: location) trail
        alternative value =
        some other := by
  induction alternatives generalizing index with
  | nil => simp at h
  | cons alternative rest ih =>
      rw [value_firstAccepted_cons, Option.or_eq_some_iff] at h
      rcases h with hfirst | ⟨-, hlater⟩
      · exact ⟨0, alternative, rfl, hfirst⟩
      · obtain ⟨place, other, hplace, hreceive⟩ := ih hlater
        refine ⟨place + 1, other, hplace, ?_⟩
        rwa [Nat.add_assoc, Nat.add_comm 1] at hreceive

theorem exists_of_lastFallback {alternatives : List Alternative}
    (h : alternatives ≠ []) :
    ∃ (place : Nat) (alternative : Alternative),
      alternatives[place]? = some alternative ∧
      (lastFallback references owner location trail 0 alternatives).value =
        some
          (standIn references owner (place :: location) trail alternative) := by
  rcases List.eq_nil_or_concat alternatives with hnil | ⟨earlier, last, rfl⟩
  · exact absurd hnil h
  · refine ⟨earlier.length, last, by simp, ?_⟩
    rw [List.concat_eq_append, value_lastFallback_concat, Nat.zero_add]

theorem mem_slots (index : Nat) {fields : List Field} {count : Nat}
    {field : Field} (h : fields[count]? = some field) :
    (field.key, slot references owner ((index + count) :: location) trail
      field.alternatives) ∈
        slots references owner location trail index fields := by
  induction fields generalizing index count with
  | nil => simp at h
  | cons first rest ih =>
      cases count with
      | zero =>
          obtain rfl : first = field := by simpa using h
          simp [slots]
      | succ count =>
          rw [← Nat.add_assoc, Nat.add_right_comm]
          exact List.mem_cons_of_mem _ (ih (index + 1) (by simpa using h))

end Mend

private theorem exists_of_admitsLiteral {alternatives : List Alternative}
    {value : Json}
    (hliteral : ∀ alternative ∈ alternatives, alternative.isLiteral)
    (h : admitsLiteral alternatives value) :
    ∃ literal,
      ⟨.literal literal, false⟩ ∈ alternatives ∧ literal.accepts value := by
  obtain ⟨alternative, hmem, haccepts⟩ := List.any_eq_true.mp h
  obtain ⟨literal, rfl⟩ :=
    AlternativeOf.eq_of_isLiteral (hliteral alternative hmem)
  exact ⟨literal, hmem, haccepts⟩

private theorem Declaration.unionAlternatives_ne_nil {schema : Schema}
    (hfilled : schema.FieldsFilled) (hunions : schema.UnionsOfLiterals)
    {declaration : Declaration} (hmem : declaration ∈ schema.declarations)
    (hkind : declaration.kind.isObject = false) :
    declaration.unionAlternatives ≠ [] := by
  obtain ⟨field, hfield⟩ :=
    List.length_eq_one_iff.mp (hunions.2 declaration hmem hkind)
  have halternatives := hfilled declaration hmem declaration.fields
    (by simp [Declaration.fieldLists]) field (by simp [hfield])
  simpa [Declaration.unionAlternatives, hfield] using halternatives

private theorem Declaration.exists_of_unionFallback {declaration : Declaration}
    (hliteral : ∀ alternative ∈ declaration.unionAlternatives,
      alternative.isLiteral)
    (hfilled : declaration.unionAlternatives ≠ []) (references : References)
    (trail : Trail) :
    ∃ literal, ⟨.literal literal, false⟩ ∈ declaration.unionAlternatives ∧
      (declaration.unionFallback references trail).value =
        some literal.toJson := by
  obtain ⟨place, alternative, hplace, hfallback⟩ :=
    Mend.exists_of_lastFallback references
    declaration.name unionLocation trail hfilled
  have hmem := List.mem_of_getElem? hplace
  obtain ⟨literal, rfl⟩ :=
    AlternativeOf.eq_of_isLiteral (hliteral alternative hmem)
  exact ⟨literal, hmem, hfallback⟩

/-! ## Frames at work -/

theorem Schema.length_unvisited_lt {schema : Schema} {declaration : Declaration}
    {trail : Trail} (hmem : declaration ∈ schema.declarations)
    (hsite : declaration.site ∉ trail) :
    (schema.unvisited (declaration.site :: trail)).length <
      (schema.unvisited trail).length := by
  have hfilter : schema.unvisited (declaration.site :: trail) =
      (schema.unvisited trail).filter fun other =>
        other.site ≠ declaration.site := by
    unfold unvisited
    rw [List.filter_filter]
    congr 1
    funext other
    simp
  rw [hfilter, List.length_filter_lt_length_iff_exists]
  exact ⟨declaration, by simp [unvisited, hmem, hsite], by simp⟩

theorem Schema.unvisited_inline (schema : Schema) (owner : String)
    (location : List Nat) (trail : Trail) :
    schema.unvisited (.inline owner location :: trail) =
      schema.unvisited trail := by
  unfold unvisited
  apply List.filter_congr
  intro declaration _
  exact decide_eq_decide.mpr (by simp [Declaration.site])

namespace Frame

variable {schema : Schema}

def spotAt (frame : Frame) (location : List Nat) : Spot :=
  ⟨frame.owner, location, frame.trail⟩

def spot (frame : Frame) : Spot := frame.spotAt frame.location

/-- From the frame every declaration that is not on its trail can still be
followed, and no literal union is on the trail. -/
structure Open (schema : Schema) (frame : Frame) : Prop where
  length_le : (schema.unvisited frame.trail).length ≤ frame.depth
  isObject : ∀ declaration ∈ schema.declarations,
    declaration.site ∈ frame.trail →
    declaration.kind.isObject

def Completes (schema : Schema) (frame : Frame) : Prop :=
  ∀ members, Complete schema Literal.StandsFor frame.spot 0 frame.fields
    (Slots.fill (frame.slots schema) members)

theorem Open.exists_depth {frame : Frame} (hopen : frame.Open schema)
    {declaration : Declaration} (hmem : declaration ∈ schema.declarations)
    (hsite : declaration.site ∉ frame.trail) :
    ∃ depth, frame.depth = depth + 1 := by
  have hunvisited : declaration ∈ schema.unvisited frame.trail := by
    simp [Schema.unvisited, hmem, hsite]
  exact Nat.exists_eq_add_one.mpr
    (Nat.lt_of_lt_of_le (List.length_pos_of_mem hunvisited) hopen.length_le)

theorem Open.ofDeclaration {frame : Frame} (hopen : frame.Open schema)
    {depth : Nat} (hdepth : frame.depth = depth + 1) {name : String}
    {declaration : Declaration} (hfind : schema.find? name = some declaration)
    (hkind : declaration.kind.isObject)
    (hsite : declaration.site ∉ frame.trail) :
    (Frame.ofDeclaration declaration depth frame.trail).Open schema where
  length_le := by
    have hlength := hopen.length_le
    have hless :=
      Schema.length_unvisited_lt (Schema.mem_of_find?_eq_some hfind).1 hsite
    simp only [Frame.ofDeclaration]
    omega
  isObject other hother hvisited := by
    rcases List.mem_cons.mp hvisited with hsame | htrail
    · have hname : other.name = name :=
        (Site.declaration.inj hsame).trans (Schema.mem_of_find?_eq_some hfind).2
      rwa [Schema.eq_of_find?_eq_some hfind hother hname]
    · exact hopen.isObject other hother htrail

private theorem Open.enter {frame inner : Frame} (hopen : frame.Open schema)
    {location : List Nat} {shape : Shape}
    (h : enter schema frame location shape = some inner) :
    inner.Open schema := by
  cases shape with
  | primitive primitive => simp [Frame.enter] at h
  | literal literal => simp [Frame.enter] at h
  | inline fields =>
      simp only [Frame.enter] at h
      split at h
      · simp at h
      · simp only [Option.some.injEq] at h
        subst h
        constructor
        · simpa [schema.unvisited_inline] using hopen.length_le
        · simpa [Declaration.site] using hopen.isObject
  | reference name =>
      cases hfind : schema.find? name with
      | none => simp [Frame.enter, hfind] at h
      | some declaration =>
          cases hdepth : frame.depth with
          | zero => simp [Frame.enter, hfind, hdepth] at h
          | succ depth =>
              simp only [Frame.enter, hfind, hdepth] at h
              split at h
              · next hopens =>
                  simp only [Option.some.injEq] at h
                  subst h
                  exact hopen.ofDeclaration hdepth hfind hopens.1 hopens.2
              · simp at h

/-- What holds of an open frame as soon as it holds of the frames inside holds
of every open frame. -/
theorem of_inside_open {motive : Frame → Prop}
    (step : ∀ {frame : Frame},
      frame.Within schema → frame.Open schema → (∀ field ∈ frame.fields,
      ∀ alternative ∈ field.alternatives, ∀ location inner,
      enter schema frame location alternative.shape = some inner →
      motive inner) → motive frame)
    {frame : Frame} (hwithin : frame.Within schema)
    (hopen : frame.Open schema) : motive frame := by
  refine of_inside (motive := fun frame => frame.Open schema → motive frame)
    ?_ frame hwithin hopen
  intro frame hwithin hinside hopen
  apply step hwithin hopen
  intro field hfield alternative halternative location inner henter
  exact (hinside field hfield alternative halternative location inner henter).2
    (hopen.enter henter)

inductive Entry (schema : Schema) (frame : Frame) (location : List Nat) :
    Shape → Option Frame → Prop
  | undeclared {name : String} (hfind : schema.find? name = none) :
      Entry schema frame location (.reference name) none
  | inlineAgain {fields : List Field}
      (h : (frame.spotAt location).site ∈ frame.trail) :
      Entry schema frame location (.inline fields) none
  | inline {fields : List Field} {inner : Frame}
      (hsite : (frame.spotAt location).site ∉ frame.trail)
      (hspot : inner.spot = (frame.spotAt location).enter)
      (hfields : inner.fields = fields) :
      Entry schema frame location (.inline fields) (some inner)
  | declaredAgain {name : String} {declaration : Declaration}
      (hfind : schema.find? name = some declaration)
      (hkind : declaration.kind.isObject)
      (h : declaration.site ∈ frame.trail) :
      Entry schema frame location (.reference name) none
  | declared {name : String} {declaration : Declaration} {inner : Frame}
      (hfind : schema.find? name = some declaration)
      (hkind : declaration.kind.isObject)
      (hsite : declaration.site ∉ frame.trail)
      (hspot : inner.spot = (frame.spotAt location).follow declaration)
      (hfields : inner.fields = declaration.fields) :
      Entry schema frame location (.reference name) (some inner)

private theorem Open.entry {frame : Frame} (hopen : frame.Open schema)
    (location : List Nat) {shape : Shape}
    (hshape : schema.defaultsToObject shape) :
    Entry schema frame location shape
      (Frame.enter schema frame location shape) := by
  cases shape with
  | primitive primitive => simp [Schema.defaultsToObject] at hshape
  | literal literal => simp [Schema.defaultsToObject] at hshape
  | inline fields =>
      by_cases hsite : Site.inline frame.owner location ∈ frame.trail
      · rw [Frame.enter, if_pos hsite]
        exact .inlineAgain hsite
      · rw [Frame.enter, if_neg hsite]
        exact .inline hsite rfl rfl
  | reference name =>
      cases hfind : schema.find? name with
      | none =>
          simp only [Frame.enter, hfind]
          exact .undeclared hfind
      | some declaration =>
          have hkind : declaration.kind.isObject := by
            simpa [Schema.defaultsToObject, hfind] using hshape
          by_cases hsite : declaration.site ∈ frame.trail
          · have henter : Frame.enter schema frame location (.reference name) =
                none := by
              cases hdepth :
                frame.depth <;> simp [Frame.enter, hfind, hdepth, hsite]
            rw [henter]
            exact .declaredAgain hfind hkind hsite
          · obtain ⟨depth, hdepth⟩ :=
              hopen.exists_depth (Schema.mem_of_find?_eq_some hfind).1 hsite
            simp only [Frame.enter, hfind, hdepth, hkind, hsite,
              not_false_eq_true, and_self, if_true]
            exact .declared hfind hkind hsite rfl rfl

section Inside

variable (frame : Frame) (location : List Nat)

theorem Open.rel_visit {frame : Frame} (hopen : frame.Open schema)
    (location : List Nat) {shape : Shape}
    (hshape : schema.defaultsToObject shape) (related : Json → Json → Prop)
    (hother : ∀ value : Json, value.isObject = false → related value value)
    (hobject : ∀ members inside,
      Entry schema frame location shape inside →
      Frame.enter schema frame location shape = inside →
      related (.object members)
      (Slots.visit (insideSlots schema inside) (.object members)))
    (value : Json) :
    related value (Slots.visit
      (insideSlots schema (Frame.enter schema frame location shape))
        value) := by
  cases value with
  | object members => exact hobject members _ (hopen.entry location hshape) rfl
  | _ =>
      rw [Slots.visit_of_isObject_eq_false _ rfl]
      exact hother _ rfl

theorem suits_visit (hopen : frame.Open schema) {shape : Shape}
    (hshape : schema.namesFields shape)
    (hinside : ∀ inner, enter schema frame location shape = some inner →
      inner.Completes schema) (value : Json) :
    Suits schema Literal.StandsFor (frame.spotAt location) shape
      (Slots.visit (insideSlots schema (enter schema frame location shape))
        value) := by
  have hdefault := Schema.defaultsToObject_of_namesFields hshape
  refine hopen.rel_visit location hdefault
    (fun _ => Suits schema Literal.StandsFor (frame.spotAt location) shape)
    (fun _ => .other hshape) ?_ value
  intro members inside hentry henter
  cases hentry with
  | undeclared hfind => simp [Schema.namesFields, hfind] at hshape
  | inlineAgain h => exact .inlineAgain h
  | inline hsite hspot hfields =>
      exact .inline (hspot ▸ hfields ▸ hinside _ henter members)
  | declaredAgain hfind hkind h => exact .declaredAgain hfind hkind h
  | declared hfind hkind hsite hspot hfields =>
      exact .declared hfind hkind (hspot ▸ hfields ▸ hinside _ henter members)

private theorem fits_receive_list (hopen : frame.Open schema) {shape : Shape}
    (hinside : ∀ inner, enter schema frame location shape = some inner →
      inner.Completes schema) {value other : Json}
    (h : receive schema frame location ⟨shape, true⟩ value = some other) :
    Fits schema Literal.StandsFor (frame.spotAt location) ⟨shape, true⟩
      other := by
  have hother := receive_list_eq_some frame location h
  by_cases hkind : value.kind = .array
  · obtain ⟨items, rfl⟩ : ∃ items, value = .array items := by
      cases value <;> simp_all [Json.kind]
    rw [hother]
    refine .list fun hshape item hitem _ => ?_
    obtain ⟨old, -, rfl⟩ := List.mem_map.mp hitem
    exact frame.suits_visit location hopen hshape hinside old
  · have hsame : other.kind = value.kind := by
      rw [hother]
      cases value <;> simp [rework, Slots.visit, Json.kind]
    refine .noList ?_ (hsame ▸ hkind)
    simp only [receive, Mend.receive, if_true] at h
    cases shape with
    | primitive primitive => simp_all [Mend.acceptList]
    | literal literal => simp_all [Mend.acceptList]
    | inline fields => rfl
    | reference name =>
        cases value <;>
          simp_all [Mend.acceptList, Json.kind, schema.references_eq,
          References.ofSchema, Schema.defaultsToObject]

private theorem fits_receive_one (hplain : schema.LiteralUnionsPlain)
    (hopen : frame.Open schema) {shape : Shape}
    (hinside : ∀ inner,
      enter schema frame location shape = some inner → inner.Completes schema)
    {value other : Json}
    (h : receive schema frame location ⟨shape, false⟩ value = some other) :
    Fits schema Literal.StandsFor (frame.spotAt location) ⟨shape, false⟩
      other := by
  have hvisit := receive_one_eq_some frame location hplain h
  rw [rework_inside_one] at hvisit
  simp only [receive, Mend.receive, Bool.false_eq_true, if_false] at h
  cases shape with
  | primitive primitive =>
      simp only [Mend.accept, Logged.value_pure, Option.ite_none_right_eq_some]
        at h
      obtain ⟨hadmits, hsame⟩ := h
      rw [← Option.some.inj hsame]
      exact .primitive (.inl hadmits)
  | literal literal =>
      simp only [Mend.accept, Logged.value_pure, Option.ite_none_right_eq_some]
        at h
      obtain ⟨haccepts, hsame⟩ := h
      rw [← Option.some.inj hsame]
      exact .literal (.inl haccepts)
  | inline fields =>
      rw [hvisit]
      exact .one (frame.suits_visit location hopen rfl hinside value)
  | reference name =>
      cases hfind : schema.find? name with
      | none => exact .undeclared hfind
      | some declaration =>
          cases hkind : declaration.kind.isObject with
          | true =>
              have hshape : schema.namesFields (.reference name) := by
                simp [Schema.namesFields, hfind, hkind]
              rw [hvisit]
              exact .one (frame.suits_visit location hopen hshape hinside value)
          | false =>
              simp only [Mend.accept, schema.references_eq] at h
              rw [References.accept_union _ _ hfind hplain hkind,
                Option.ite_none_right_eq_some] at h
              obtain ⟨⟨-, hadmits⟩, hsame⟩ := h
              rw [← Option.some.inj hsame]
              obtain ⟨literal, hliteral, haccepts⟩ := exists_of_admitsLiteral
                (Declaration.unionAlternatives_literal hplain
                  (Schema.mem_of_find?_eq_some hfind).1 hkind) hadmits
              exact .union hfind hkind hliteral (.inl haccepts)

private theorem fits_receive (hplain : schema.LiteralUnionsPlain)
    (hopen : frame.Open schema) {alternative : Alternative}
    (hinside : ∀ inner,
      enter schema frame location alternative.shape = some inner →
      inner.Completes schema)
    {value other : Json}
    (h : receive schema frame location alternative value = some other) :
    Fits schema Literal.StandsFor (frame.spotAt location) alternative
      other := by
  obtain ⟨shape, isArray⟩ := alternative
  cases isArray with
  | true => exact fits_receive_list frame location hopen hinside h
  | false => exact fits_receive_one frame location hplain hopen hinside h

private theorem fits_fallback_union (hfilled : schema.FieldsFilled)
    (hunions : schema.UnionsOfLiterals) (hopen : frame.Open schema)
    {name : String} {declaration : Declaration}
    (hfind : schema.find? name = some declaration)
    (hkind : declaration.kind.isObject = false) :
    Fits schema Literal.StandsFor (frame.spotAt location)
      ⟨.reference name, false⟩
      ((schema.references frame.depth).fallback frame.trail name).value := by
  have hmem := (Schema.mem_of_find?_eq_some hfind).1
  have hsite : declaration.site ∉ frame.trail := by
    intro hvisited
    simp [hopen.isObject declaration hmem hvisited] at hkind
  obtain ⟨depth, hdepth⟩ := hopen.exists_depth hmem hsite
  obtain ⟨literal, hliteral, hfallback⟩ := Declaration.exists_of_unionFallback
    (Declaration.unionAlternatives_literal hunions.1 hmem hkind)
    (Declaration.unionAlternatives_ne_nil hfilled hunions hmem hkind)
    (schema.references depth) (declaration.site :: frame.trail)
  have hvalue :
      ((schema.references frame.depth).fallback frame.trail name).value =
      literal.toJson := by
    rw [hdepth]
    simp [schema.references_eq (depth + 1), Schema.below, References.ofSchema,
      References.within, hfind, hsite, hkind, hfallback]
  rw [hvalue]
  exact .union hfind hkind hliteral literal.standsFor_toJson

private theorem fits_standIn (hfilled : schema.FieldsFilled)
    (hunions : schema.UnionsOfLiterals) (hopen : frame.Open schema)
    {alternative : Alternative}
    (hinside : ∀ inner,
      enter schema frame location alternative.shape = some inner →
      inner.Completes schema) :
    Fits schema Literal.StandsFor (frame.spotAt location) alternative
      (Mend.standIn (schema.references frame.depth) frame.owner location
        frame.trail alternative) := by
  obtain ⟨shape, isArray⟩ := alternative
  cases isArray with
  | true => exact .list fun _ item hitem => absurd hitem (by simp)
  | false =>
      simp only [Mend.standIn, Bool.false_eq_true, if_false]
      cases shape with
      | primitive primitive => exact .primitive (.inr rfl)
      | literal literal => exact .literal literal.standsFor_toJson
      | inline fields =>
          rw [value_fallback_object frame location rfl]
          exact .one (frame.suits_visit location hopen rfl hinside _)
      | reference name =>
          cases hfind : schema.find? name with
          | none => exact .undeclared hfind
          | some declaration =>
              cases hkind : declaration.kind.isObject with
              | false =>
                  exact frame.fits_fallback_union location hfilled hunions hopen
                    hfind hkind
              | true =>
                  rw [value_fallback_object frame location
                    (by simp [Schema.defaultsToObject, hfind, hkind])]
                  have hshape : schema.namesFields (.reference name) := by
                    simp [Schema.namesFields, hfind, hkind]
                  exact .one (frame.suits_visit location hopen hshape hinside _)

end Inside

/-- What a frame makes of an object is complete if that holds of the frames
inside. -/
private theorem completes_of_inside (hdistinct : schema.DistinctKeys)
    (hfilled : schema.FieldsFilled) (hunions : schema.UnionsOfLiterals)
    {frame : Frame} (hwithin : frame.Within schema) (hopen : frame.Open schema)
    (hinside : ∀ field ∈ frame.fields, ∀ alternative ∈ field.alternatives,
      ∀ location inner, enter schema frame location alternative.shape =
      some inner → inner.Completes schema) : frame.Completes schema := by
  intro members
  have hkeys := nodup_keys_slots frame hdistinct hwithin
  obtain ⟨declaration, hmem, hlist⟩ := hwithin
  apply Complete.of_forall
  intro count field hcount
  rw [Nat.zero_add]
  have hfield := List.mem_of_getElem? hcount
  have hslot :=
    Mend.mem_slots (schema.references frame.depth) frame.owner frame.location
    frame.trail 0 hcount
  rw [Nat.zero_add] at hslot
  rw [Slots.lookup_fill, Slots.under_of_mem hkeys hslot]
  cases haccept : (Keyed.lookup field.key members).bind (Mend.slot
      (schema.references frame.depth) frame.owner (count :: frame.location)
        frame.trail field.alternatives).accept with
  | some kept =>
      obtain ⟨value, -, hkept⟩ := Option.bind_eq_some_iff.mp haccept
      obtain ⟨place, alternative, hplace, hreceive⟩ :=
        Mend.exists_of_firstAccepted _ _ _ _ hkept
      rw [Nat.zero_add] at hreceive
      refine ⟨kept, by
        simp [Slot.fill, haccept], place, alternative, hplace, ?_⟩
      exact frame.fits_receive _ hunions.1 hopen
        (hinside field hfield alternative (List.mem_of_getElem? hplace) _)
          hreceive
  | none =>
      obtain ⟨place, alternative, hplace, hfallback⟩ :=
        Mend.exists_of_lastFallback
        (schema.references frame.depth) frame.owner (count :: frame.location)
          frame.trail
        (hfilled declaration hmem _ hlist field hfield)
      have hfill : (Mend.slot (schema.references frame.depth) frame.owner
          (count :: frame.location) frame.trail field.alternatives).fill
            (Keyed.lookup field.key members) =
              some (Mend.standIn (schema.references frame.depth)
              frame.owner (place :: count :: frame.location) frame.trail
                alternative) := by
        rw [Slot.fill, haccept]
        simp [Mend.slot, hfallback]
      refine ⟨_, hfill, place, alternative, hplace, ?_⟩
      exact frame.fits_standIn _ hfilled hunions hopen
        (hinside field hfield alternative (List.mem_of_getElem? hplace) _)

private theorem completes (hdistinct : schema.DistinctKeys)
    (hfilled : schema.FieldsFilled) (hunions : schema.UnionsOfLiterals)
    (frame : Frame) (hwithin : frame.Within schema)
    (hopen : frame.Open schema) : frame.Completes schema :=
  of_inside_open (completes_of_inside hdistinct hfilled hunions) hwithin hopen

end Frame

/-! ## Whole values -/

namespace Schema

variable {schema : Schema} {declaration : Declaration}

theorem open_ofDeclaration {name : String}
    (hfind : schema.find? name = some declaration)
    (hkind : declaration.kind.isObject) :
    (Frame.ofDeclaration declaration schema.declarations.length []).Open
      schema where
  length_le := List.length_filter_le _ _
  isObject other hother hvisited := by
    have hname : other.name = name := by
      simp only [Frame.ofDeclaration, List.mem_singleton, Declaration.site,
        Site.declaration.injEq] at hvisited
      exact hvisited.trans (mem_of_find?_eq_some hfind).2
    rwa [eq_of_find?_eq_some hfind hother hname]

/-- Under distinct keys, with an alternative for every field and with literal
unions of literals, an object or a missing value is mended to a complete
object.  Null stands for the numbers that JSON does not have. -/
theorem complete_mend (hdistinct : schema.DistinctKeys)
    (hfilled : schema.FieldsFilled) (hunions : schema.UnionsOfLiterals)
    {name : String} (hfind : schema.find? name = some declaration)
    (hkind : declaration.kind.isObject) {value : Json}
    (hvalue : value = .null ∨ value.isObject) :
    ∃ members, (schema.mend declaration false value).value = .object members ∧
      Complete schema Literal.StandsFor
        ⟨declaration.name, [], [declaration.site]⟩ 0
        declaration.fields members := by
  have hmem := (mem_of_find?_eq_some hfind).1
  have hcompletes := Frame.completes hdistinct hfilled hunions _
    (Frame.within_ofDeclaration hmem schema.declarations.length [])
    (open_ofDeclaration hfind hkind)
  have hobject : ∀ members,
      Slots.visit (declaration.context schema).slots (.object members) =
        .object
          (Slots.fill
            ((Frame.ofDeclaration declaration schema.declarations.length
          []).slots schema) members) := by
    intro members
    rw [Declaration.context, Context.slots_context, Slots.visit]
  rcases hvalue with rfl | hvalue
  · refine ⟨_, ?_, hcompletes []⟩
    simp only [mend, Bool.false_eq_true, if_false]
    rw [value_mendOne_null hkind, hobject]
  · obtain ⟨members, rfl⟩ : ∃ members, value = .object members := by
      cases value <;> simp_all [isObject]
    refine ⟨_, ?_, hcompletes members⟩
    simp only [mend, Bool.false_eq_true, if_false]
    rw [value_mendOne_object hkind _ (by simp), hobject]

/-- Threads of replies: a reference to itself, one to a literal union, a list of
objects that are written out in place, and a name that is not declared. -/
def threads : Schema where
  declarations := [
    { name := "Thread"
      kind := .interface
      exported := true
      fields := [
        ⟨"mood", false, [⟨.reference "Mood", false⟩]⟩,
        ⟨"first", true,
          [⟨.primitive .null, false⟩, ⟨.reference "Thread", false⟩]⟩,
        ⟨"replies", false,
          [⟨.inline [⟨"id", false, [⟨.primitive .never, false⟩]⟩,
          ⟨"thread", false, [⟨.reference "Thread", false⟩]⟩], true⟩]⟩,
        ⟨"marks", false,
          [⟨.primitive .string, true⟩, ⟨.reference "Mark", true⟩]⟩] },
    { name := "Mood"
      kind := .literalUnion
      exported := false
      fields := [⟨"Mood", false, [⟨.literal (.string "calm"), false⟩,
        ⟨.literal (.number (.ofInt 7)), false⟩]⟩] }]
  distinct := by decide

theorem complete_mend_threads :
    threads.DistinctKeys ∧ threads.FieldsFilled ∧ threads.UnionsOfLiterals ∧
      ∃ declaration,
        threads.find? "Thread" = some declaration ∧ declaration.kind.isObject ∧
        ∃ members, (threads.mend declaration false
            (.object [("replies", .array [.object [], .null]),
              ("first", .object [])])).value =
          .object members ∧
          Complete threads Literal.StandsFor
            ⟨declaration.name, [], [declaration.site]⟩ 0 declaration.fields
            members :=
  ⟨by decide +kernel, by decide +kernel, by decide +kernel,
    threads.declarations[0], rfl, rfl,
    complete_mend (by decide +kernel) (by decide +kernel) (by decide +kernel)
      (show threads.find? "Thread" = some threads.declarations[0] from rfl) rfl
        (.inr rfl)⟩

/-- A literal that no value equals, and one that an integer rounds to. -/
def horizon : Schema where
  declarations := [
    { name := "Horizon"
      kind := .interface
      exported := false
      fields := [
        ⟨"distance", false, [⟨.literal (.number ⟨false, .infinity⟩), false⟩]⟩]
          },
    { name := "Ruler"
      kind := .interface
      exported := false
      fields := [
        ⟨"length", false,
          [⟨.literal (.number (.ofInt 9007199254740992)), false⟩]⟩] }]
  distinct := by decide

private theorem stands_of_complete {schema : Schema}
    {stands : Literal → Json → Prop} {spot : Spot} {key : String}
    {literal : Literal} {value : Json}
    (h : Complete schema stands spot 0
      [⟨key, false, [⟨.literal literal, false⟩]⟩] [(key, value)]) :
    stands literal value := by
  cases h with
  | @cons _ _ _ _ _ found place alternative hvalue halternative hfits hrest =>
      have hlookup : Keyed.lookup key [(key, value)] = some value := by
        simp [Keyed.lookup]
      obtain rfl : value = found :=
        Option.some.inj (hlookup.symm.trans hvalue)
      obtain ⟨hplace, rfl⟩ := List.getElem?_eq_some_iff.mp halternative
      obtain rfl : place = 0 := Nat.lt_one_iff.mp hplace
      cases hfits with
      | literal h => exact h
      | one h =>
          cases h with
          | other hshape hobject => cases hshape

private theorem value_mend_object {schema : Schema}
    {declaration : Declaration} (hkind : declaration.kind.isObject)
    (members : Members) :
    (schema.mend declaration false (.object members)).value =
      .object (Mend.fields (schema.references schema.declarations.length)
        declaration.name [] [declaration.site] 0 declaration.fields
          members).value := by
  simp [mend, mendOne, References.mendOne, hkind, Mend.value_object_members,
    Declaration.change]

theorem not_complete_horizon :
    horizon.DistinctKeys ∧ horizon.FieldsFilled ∧ horizon.UnionsOfLiterals ∧
      (∃ declaration, horizon.find? "Horizon" = some declaration ∧
        declaration.kind.isObject ∧
        ¬∃ members,
          (horizon.mend declaration false (.object [])).value =
            .object members ∧
          Complete horizon (fun literal value => literal.accepts value)
            ⟨declaration.name, [], [declaration.site]⟩ 0
            declaration.fields members) ∧
      ∃ declaration, horizon.find? "Ruler" = some declaration ∧
        declaration.kind.isObject ∧
        ¬∃ members,
          (horizon.mend declaration false (.object
            [("length", .number (.integer 9007199254740993))])).value =
              .object members ∧
          Complete horizon Literal.Is
            ⟨declaration.name, [], [declaration.site]⟩ 0
            declaration.fields members := by
  refine ⟨by decide +kernel, by decide +kernel, by decide +kernel,
    ⟨horizon.declarations[0], rfl, rfl, ?_⟩,
    horizon.declarations[1], rfl, rfl, ?_⟩
  · rintro ⟨members, hvalue, hcomplete⟩
    obtain rfl : [("distance", .null)] = members := Json.object.inj hvalue
    cases stands_of_complete hcomplete
  · rintro ⟨members, hvalue, hcomplete⟩
    have hkept : (horizon.mend horizon.declarations[1] false (.object
        [("length", .number (.integer 9007199254740993))])).value =
          .object [("length", .number (.integer 9007199254740993))] := by
      have haccepts : (Literal.number (.ofInt 9007199254740992)).accepts
          (.number (.integer 9007199254740993)) = true := by decide +kernel
      rw [value_mend_object rfl]
      simp [horizon, Mend.fields, Mend.firstAccepted, Mend.accept, haccepts,
        Keyed.lookup, Keyed.put]
    obtain rfl := Json.object.inj (hkept.symm.trans hvalue)
    have hlength : (Number.Binary64.ofInt 9007199254740992).toInt? =
        some 9007199254740993 := stands_of_complete hcomplete
    exact absurd hlength (by decide +kernel)

end Schema

end ShapeMend
