import ShapeMend.Proofs.Mend.Untracked
import ShapeMend.Proofs.Mend.Completeness

/-!
# Literal unions written out

A field that refers to a literal union does what it does with the literals of
the union in place of the reference: as lists of literals they only tell lists
from other values, and the last one is the default.  Only the alternatives
behind them come later in their field, and without places that does not matter.
A union is never on the trail where a field refers to it, since nothing but
object declarations has fields that do.
-/

namespace ShapeMend

/-! ## Written-out fields -/

mutual

/-- The alternatives for a shape or a list of it, with the literals of a union
in place of a reference to it. -/
def Shape.writeOut (union : Declaration) (isArray : Bool) :
    Shape → List (AlternativeOf Shape)
  | .inline fields => [⟨.inline (writeOutFields union fields), isArray⟩]
  | .reference name =>
    if name = union.name then
      union.unionAlternatives.map fun alternative =>
        { alternative with isArray }
    else [⟨.reference name, isArray⟩]
  | shape => [⟨shape, isArray⟩]

/-- The fields with the literals of a union in place of references to it, at any
depth. -/
def writeOutFields (union : Declaration) :
    List (FieldOf Shape) → List (FieldOf Shape)
  | [] => []
  | ⟨key, optional, alternatives⟩ :: fields =>
    ⟨key, optional, writeOutAlternatives union alternatives⟩ ::
      writeOutFields union fields

def writeOutAlternatives (union : Declaration) :
    List (AlternativeOf Shape) → List (AlternativeOf Shape)
  | [] => []
  | ⟨shape, isArray⟩ :: alternatives =>
      shape.writeOut union isArray ++ writeOutAlternatives union alternatives

end

/-- The fields of a declaration of objects with the literals of a union in place
of references to it. -/
def Declaration.writeOut (union declaration : Declaration) : List Field :=
  if declaration.kind.isObject then writeOutFields union declaration.fields
  else declaration.fields

theorem Declaration.with_writeOut (union : Declaration)
    {declaration : Declaration} (hkind : declaration.kind.isObject = false) :
    ({ declaration with fields := union.writeOut declaration } : Declaration) =
      declaration := by
  simp [writeOut, hkind]

private theorem Declaration.Plain.writeOut {declaration : Declaration}
    (hplain : declaration.Plain) (union : Declaration) :
    ({ declaration with fields := union.writeOut declaration } :
      Declaration).Plain := by
  cases hkind : declaration.kind.isObject with
  | true => exact plain_of_isObject hkind
  | false => rwa [with_writeOut union hkind]

/-- The schema with the literals of a union in place of references to it. -/
def Schema.writeOut (schema : Schema) (union : Declaration) : Schema :=
  schema.mapFields union.writeOut

structure Declaration.HoldsLiterals (union : Declaration) : Prop where
  literal : ∀ alternative ∈ union.unionAlternatives, alternative.isLiteral
  filled : union.unionAlternatives ≠ []

section

variable {union : Declaration} (hunion : union.HoldsLiterals)
include hunion

private theorem Shape.writeOut_ne_nil (isArray : Bool) (shape : Shape) :
    shape.writeOut union isArray ≠ [] := by
  cases shape with
  | reference name =>
      simp only [writeOut]
      split
      · simpa using hunion.filled
      · exact List.cons_ne_nil _ _
  | _ => simp [writeOut]

private theorem writeOutAlternatives_eq_nil
    {alternatives : List (AlternativeOf Shape)} :
    writeOutAlternatives union alternatives = [] ↔ alternatives = [] := by
  cases alternatives with
  | nil => simp [writeOutAlternatives]
  | cons alternative rest =>
      simp [writeOutAlternatives, alternative.shape.writeOut_ne_nil hunion]

end

namespace Mend

/-! ## Alternatives one after the other -/

section

variable (references : References) (owner : String) (location : List Nat)
  (trail : Trail) (index : Nat)

private theorem firstAccepted_append (first second : List (AlternativeOf Shape))
    (value : Json) :
    firstAccepted references owner location trail index (first ++ second)
        value = (do
      let accepted? ←
        firstAccepted references owner location trail index first value
      match accepted? with
      | some value => return some value
      | none =>
          firstAccepted references owner location trail (index + first.length)
            second value) := by
  induction first generalizing index with
  | nil => rfl
  | cons alternative first ih =>
      obtain ⟨shape, isArray⟩ := alternative
      have hcount :
          index + 1 + first.length = index + (first.length + 1) := by omega
      simp only [List.cons_append, List.length_cons, firstAccepted, ih, hcount]
      cases isArray <;>
        · simp only [Bool.false_eq_true, if_false, if_true, Logged.bind_assoc]
          congr 1
          funext accepted
          cases accepted <;> rfl

private theorem lastFallback_append (first : List (AlternativeOf Shape))
    {second : List (AlternativeOf Shape)} (h : second ≠ []) :
    lastFallback references owner location trail index (first ++ second) =
      lastFallback references owner location trail (index + first.length)
        second := by
  induction first generalizing index with
  | nil => rfl
  | cons alternative first ih =>
      have hcount :
          index + 1 + first.length = index + (first.length + 1) := by omega
      obtain ⟨next, rest, hrest⟩ :=
        List.exists_cons_of_ne_nil (List.append_ne_nil_of_right_ne_nil first h)
      rw [List.cons_append, List.length_cons, ← hcount, ← ih, hrest,
        lastFallback]

end

end Mend

/-! ## References to a union -/

structure References.Compare (references : References) (union : Declaration)
    (trail : Trail) : Prop where
  enter : references.enter = .untracked
  accept : ∀ value, references.accept trail union.name value = pure
    (if admitsLiteral union.unionAlternatives value then some value else none)
  element : ∀ item, references.element trail union.name item = pure item
  fallback : references.fallback trail union.name =
    pure ((lastLiteral union.unionAlternatives).getD .null)
  describesObject : references.describesObject union.name = false

namespace Mend

section

variable {alternatives : List Alternative}

theorem map_literals
    (hliteral : ∀ alternative ∈ alternatives, alternative.isLiteral) :
    (alternatives.map fun alternative =>
      { alternative with isArray := false }) = alternatives := by
  refine (List.map_congr_left fun alternative hmem => ?_).trans
    (List.map_id alternatives)
  obtain ⟨literal, rfl⟩ :=
    AlternativeOf.eq_of_isLiteral (hliteral alternative hmem)
  rfl

variable (references : References) (owner : String) (location : List Nat)
  (trail : Trail) (index : Nat)

private theorem firstAccepted_literalLists
    (hliteral : ∀ alternative ∈ alternatives, alternative.isLiteral)
    (value : Json) :
    firstAccepted references owner location trail index
        (alternatives.map
          fun alternative => { alternative with isArray := true }) value =
      pure (if value.kind = .array ∧ alternatives ≠ [] then some value
        else none) := by
  induction alternatives generalizing index with
  | nil => simp [firstAccepted]
  | cons alternative rest ih =>
      obtain ⟨literal, rfl⟩ :=
        AlternativeOf.eq_of_isLiteral (hliteral alternative (by simp))
      have hrest := ih (index + 1) fun other hother =>
          hliteral other (by simp [hother])
      by_cases hvalue : value.kind = .array <;>
        simp [firstAccepted, acceptList, hvalue, hrest, Logged.pure_bind]

private theorem lastFallback_lists (hfilled : alternatives ≠ []) :
    lastFallback references owner location trail index
        (alternatives.map fun alternative =>
          { alternative with isArray := true }) = pure (some (.array [])) := by
  induction alternatives generalizing index with
  | nil => exact absurd rfl hfilled
  | cons alternative rest ih =>
      cases rest with
      | nil => simp [lastFallback, Logged.pure_bind]
      | cons next rest =>
          simpa [lastFallback] using ih (index + 1) (List.cons_ne_nil _ _)

variable {references trail} {union : Declaration}
  (hcompare : references.Compare union trail)
  (hunion : union.HoldsLiterals)
include hcompare hunion

private theorem firstAccepted_union (isArray : Bool) (value : Json) :
    firstAccepted references owner location trail index
        (union.unionAlternatives.map
          fun alternative => { alternative with isArray }) value =
      firstAccepted references owner location trail index
        [⟨.reference union.name, isArray⟩] value := by
  cases isArray with
  | false =>
      rw [map_literals hunion.literal,
        firstAccepted_literals _ _ _ _ _ hunion.literal]
      cases hvalue : admitsLiteral union.unionAlternatives value <;>
        simp [firstAccepted, accept, hcompare.accept, hvalue, Logged.pure_bind]
  | true =>
      rw [firstAccepted_literalLists references owner location trail index
        hunion.literal]
      cases value with
      | array items =>
          simp [firstAccepted, acceptList, funext hcompare.element,
            Logged.mapM_pure, Logged.pure_bind, Json.kind, hunion.filled]
      | _ =>
          simp [firstAccepted, acceptList, hcompare.describesObject,
            Logged.pure_bind, Json.kind]

private theorem lastFallback_union (isArray : Bool) :
    lastFallback references owner location trail index
        (union.unionAlternatives.map
          fun alternative => { alternative with isArray }) =
      lastFallback references owner location trail index
        [⟨.reference union.name, isArray⟩] := by
  cases isArray with
  | false =>
      have hlast : lastLiteral union.unionAlternatives ≠ none := by
        simpa [lastLiteral] using hunion.filled
      obtain ⟨last, hlast⟩ := Option.ne_none_iff_exists'.mp hlast
      rw [map_literals hunion.literal,
        lastFallback_literals _ _ _ _ _ hunion.literal]
      simp [lastFallback, fallback, hcompare.fallback, hlast, Logged.pure_bind]
  | true =>
      rw [lastFallback_lists references owner location trail index
        hunion.filled]
      rfl

end

variable {references : References} {trail : Trail} {union : Declaration}

mutual

theorem shape_writeOut (hcompare : references.Compare union trail)
    (hunion : union.HoldsLiterals) (shape : Shape) (isArray : Bool)
    (owner : String) (location : List Nat) (index : Nat) :
    (∀ value,
      firstAccepted references owner location trail index
      (shape.writeOut union isArray) value =
        firstAccepted references owner location trail index [⟨shape, isArray⟩]
          value) ∧
      lastFallback references owner location trail index
        (shape.writeOut union isArray) =
        lastFallback references owner location trail index
          [⟨shape, isArray⟩] := by
  match shape with
  | .primitive primitive => exact ⟨fun _ => rfl, rfl⟩
  | .literal literal => exact ⟨fun _ => rfl, rfl⟩
  | .reference name =>
      simp only [Shape.writeOut]
      split
      · next hname =>
          subst hname
          exact ⟨firstAccepted_union owner location index hcompare hunion
            isArray,
            lastFallback_union owner location index hcompare hunion isArray⟩
      · exact ⟨fun _ => rfl, rfl⟩
  | .inline inside =>
      have hobject (value : Json) :
          object references.enter trail (.inline owner (index :: location))
          (fun trail members =>
            fields references owner (index :: location) trail 0
            (writeOutFields union inside) members) value =
            object references.enter trail (.inline owner (index :: location))
              (fun trail members => fields references owner (index :: location)
                trail 0 inside members)
              value := by
        cases value with
        | object members =>
            simp only [object, hcompare.enter, Entry.untracked,
              fields_writeOut hcompare hunion inside owner (index :: location) 0
              members]
        | _ => rfl
      have hone := hobject (.object [])
      refine ⟨fun value => ?_, by
        simp only [Shape.writeOut, lastFallback, fallback, fresh, hone]⟩
      cases isArray with
      | false =>
          simp only [Shape.writeOut, firstAccepted, accept, hobject,
            Bool.false_eq_true, if_false]
      | true =>
          cases value with
          | array items =>
              simp only [Shape.writeOut, firstAccepted, acceptList,
                funext hobject, if_true]
          | _ => rfl

private theorem fields_writeOut (hcompare : references.Compare union trail)
    (hunion : union.HoldsLiterals) (list : List (FieldOf Shape))
    (owner : String) (location : List Nat) (index : Nat) (members : Members) :
    fields references owner location trail index (writeOutFields union list)
      members =
      fields references owner location trail index list members := by
  match list with
  | [] => rfl
  | ⟨key, optional, alternatives⟩ :: rest =>
      obtain ⟨haccepted, hdefault⟩ :=
        alternatives_writeOut hcompare hunion alternatives owner
          (index :: location) 0
      have hrest :=
        fields_writeOut hcompare hunion rest owner location (index + 1)
      simp only [writeOutFields, fields, haccepted, hdefault, hrest]

theorem alternatives_writeOut (hcompare : references.Compare union trail)
    (hunion : union.HoldsLiterals) (alternatives : List (AlternativeOf Shape))
    (owner : String) (location : List Nat) (index : Nat) :
    (∀ value,
      firstAccepted references owner location trail index
      (writeOutAlternatives union alternatives) value =
        firstAccepted references owner location trail index alternatives
          value) ∧
      lastFallback references owner location trail index
        (writeOutAlternatives union alternatives) =
        lastFallback references owner location trail index alternatives := by
  match alternatives with
  | [] => exact ⟨fun _ => rfl, rfl⟩
  | ⟨shape, isArray⟩ :: rest =>
      obtain ⟨hfirst, hdefault⟩ :=
        shape_writeOut hcompare hunion shape isArray owner location index
      obtain ⟨hrest, hlast⟩ :=
        alternatives_writeOut hcompare hunion rest owner location (index + 1)
      obtain ⟨hmoved, hmovedLast⟩ :=
        untracked_alternatives (.refl hcompare.enter trail)
          (writeOutAlternatives union rest)
        owner owner location location (index + 1)
          (index + (shape.writeOut union isArray).length)
      constructor
      · intro value
        rw [writeOutAlternatives, firstAccepted_append, hfirst, hmoved, hrest]
        exact (firstAccepted_append references owner location trail index
          [⟨shape, isArray⟩] rest value).symm
      · cases rest with
        | nil =>
            simpa only [writeOutAlternatives, List.append_nil] using hdefault
        | cons next rest =>
            have hnext : writeOutAlternatives union (next :: rest) ≠ [] :=
              mt (writeOutAlternatives_eq_nil hunion).mp (List.cons_ne_nil _ _)
            rw [writeOutAlternatives, lastFallback_append _ _ _ _ _ _ hnext,
              hmovedLast, hlast, lastFallback]

end

end Mend

/-! ## Schemas -/

section

variable {schema : Schema} {union : Declaration}
  (hmem : union ∈ schema.declarations)
  (hkind : union.kind.isObject = false) (hunion : union.HoldsLiterals)
include hmem hkind hunion

/-- A literal union is never on the trail, and declarations can be followed as
long as one is not. -/
theorem References.compare_references {frame : Frame}
    (hopen : frame.Open schema) :
    (Entry.untracked.references schema frame.depth).Compare union
      frame.trail := by
  have hsite : union.site ∉ frame.trail := by
    intro hvisited
    simp [hopen.isObject union hmem hvisited] at hkind
  obtain ⟨depth, hdepth⟩ := hopen.exists_depth hmem hsite
  have hfind := Schema.find?_name hmem
  have hwithin (inner : Option References) :
      within inner frame.trail union.site = inner := if_neg hsite
  rw [hdepth, Entry.references]
  refine ⟨rfl, fun value => ?_, fun item => ?_, ?_, ?_⟩
  · simp [References.ofSchema, hfind, hwithin, hkind,
      Declaration.acceptUnion_literals hunion.literal]
  · simp [References.ofSchema, hfind, hwithin, hkind]
  · simp [References.ofSchema, hfind, hwithin, hkind,
      Declaration.unionFallback_literals hunion.literal, Logged.pure_bind]
  · simp [References.ofSchema, hfind, hkind]

omit hmem hkind

theorem Declaration.agreeInside_writeOut {declaration : Declaration}
    (hplain : declaration.Plain) {trail : Trail} {first second : References}
    (hinside : declaration.kind.isObject = true →
      first.AgreeWith (declaration.site :: trail) second ∧
      first.Compare union (declaration.site :: trail)) :
    declaration.AgreeInside (union.writeOut declaration) trail first
      second where
  change hobject members := by
    obtain ⟨hagree, hcompare⟩ := hinside hobject
    rw [writeOut, if_pos hobject]
    exact (Mend.untracked_fields hagree _ declaration.name declaration.name []
      [] 0 0 members).trans
      (Mend.fields_writeOut hcompare hunion declaration.fields declaration.name
        [] 0 members)
  accept hother value := by
    have hliteral := hplain.unionAlternatives_literal hother
    rw [with_writeOut union hother, Declaration.acceptUnion_literals hliteral,
      Declaration.acceptUnion_literals hliteral]
  fallback hother := by
    have hliteral := hplain.unionAlternatives_literal hother
    rw [with_writeOut union hother, Declaration.unionFallback_literals hliteral,
      Declaration.unionFallback_literals hliteral]

include hmem hkind

variable (hplain : schema.LiteralUnionsPlain)
include hplain

private theorem References.agreeWith_writeOut {frame : Frame}
    (hopen : frame.Open schema) :
    (Entry.untracked.references schema frame.depth).AgreeWith frame.trail
      (Entry.untracked.references (schema.writeOut union) frame.depth) := by
  induction hdepth : frame.depth generalizing frame with
  | zero => exact .ofSchema fun _ _ _ => .none
  | succ depth ih =>
      refine .ofSchema fun declaration hdeclaration hsite => .some ?_
      refine Declaration.agreeInside_writeOut hunion
        (hplain declaration hdeclaration) fun hobject => ?_
      have hinner :=
        hopen.ofDeclaration hdepth (Schema.find?_name hdeclaration)
          hobject hsite
      exact ⟨ih hinner rfl, compare_references hmem hkind hunion hinner⟩

namespace Entry

private theorem mendOne_writeOut {declaration : Declaration}
    (hdeclaration : declaration ∈ schema.declarations) (value : Json) :
    (untracked.references (schema.writeOut union)
      schema.declarations.length).mendOne
        { declaration with fields := union.writeOut declaration } value =
      (untracked.references schema schema.declarations.length).mendOne
        declaration value := by
  cases hobject : declaration.kind.isObject with
  | true =>
      have hopen :=
        Schema.open_ofDeclaration (Schema.find?_name hdeclaration) hobject
      have hinside :=
        Declaration.agreeInside_writeOut hunion
          (hplain declaration hdeclaration) fun _ =>
        And.intro (References.agreeWith_writeOut hmem hkind hunion hplain hopen)
          (References.compare_references hmem hkind hunion hopen)
      have hsame := hinside.object hobject
      simp only [References.mendOne, hobject, if_true, Declaration.site_fields,
        Mend.fresh]
      cases value <;> exact hsame _
  | false =>
      have hliteral :=
        (hplain declaration hdeclaration).unionAlternatives_literal hobject
      rw [Declaration.with_writeOut union hobject]
      simp only [References.mendOne, hobject, Bool.false_eq_true, if_false,
        Declaration.acceptUnion_literals hliteral,
          Declaration.unionFallback_literals hliteral]

private theorem mend_writeOut {declaration : Declaration}
    (hdeclaration : declaration ∈ schema.declarations) (isArray : Bool)
    (value : Json) :
    untracked.mend (schema.writeOut union)
      { declaration with fields := union.writeOut declaration } isArray value =
      untracked.mend schema declaration isArray value := by
  have hlength : (schema.writeOut union).declarations.length =
      schema.declarations.length := schema.length_mapFields _
  have hone := mendOne_writeOut hmem hkind hunion hplain hdeclaration
  simp only [mend, hlength]
  cases isArray with
  | false => exact hone value
  | true =>
      simp only [References.mend, if_true]
      cases value with
      | array items => simp only [Declaration.mendList, hone]
      | _ => rfl

end Entry

end

namespace Schema

/-- A literal union that is referred to and one that is written out are the same
to every value. -/
theorem map_mend_writeOut {schema : Schema} (hplain : schema.LiteralUnionsPlain)
    {union : Declaration} (hmem : union ∈ schema.declarations)
    (hkind : union.kind.isObject = false)
    (hfilled : union.unionAlternatives ≠ []) (name : String) (isArray : Bool)
    (value : Json) :
    ((schema.writeOut union).find? name).map (fun declaration =>
        (schema.writeOut union).mend declaration isArray value) =
      (schema.find? name).map fun declaration =>
        schema.mend declaration isArray value := by
  have hunion : union.HoldsLiterals :=
    ⟨Declaration.unionAlternatives_literal hplain hmem hkind, hfilled⟩
  rw [writeOut, find?_mapFields, Option.map_map]
  cases hfind : schema.find? name with
  | none => rfl
  | some declaration =>
      have hdeclaration := (mem_of_find?_eq_some hfind).1
      have hwritten := (hplain declaration hdeclaration).writeOut union
      have hsame :=
        Entry.mend_writeOut hmem hkind hunion hplain hdeclaration isArray value
      rw [← Entry.mend_eq Entry.enters_untracked hwritten,
        ← Entry.mend_eq Entry.enters_untracked
          (hplain declaration hdeclaration)] at hsame
      exact congrArg some hsame

/-- Palettes in palettes, with colours alone, in lists, in objects and beside
other alternatives. -/
def palettes : Schema where
  declarations := [
    { name := "Palette"
      kind := .interface
      exported := true
      fields := [
        ⟨"main", false,
          [⟨.reference "Palette", true⟩, ⟨.reference "Colour", false⟩]⟩,
        ⟨"rest", true,
          [⟨.inline [⟨"colour", false,
            [⟨.reference "Colour", false⟩, ⟨.primitive .number, false⟩]⟩,
          ⟨"inner", false, [⟨.reference "Palette", false⟩]⟩], true⟩]⟩,
        ⟨"all", false,
          [⟨.primitive .string, false⟩, ⟨.reference "Colour", true⟩]⟩] },
    { name := "Colour"
      kind := .literalUnion
      exported := false
      fields :=
        [⟨"Colour", false,
          [⟨.literal (.string "red"), false⟩,
          ⟨.literal (.boolean false), false⟩]⟩] }]
  distinct := by decide

theorem map_mend_writeOut_palettes :
    palettes.LiteralUnionsPlain ∧ ∃ union ∈ palettes.declarations,
    union.kind.isObject = false ∧ union.unionAlternatives ≠ [] ∧
      ((palettes.writeOut union).find? "Palette").map (fun declaration =>
        (palettes.writeOut union).mend declaration true (.array [.object
          [("rest", .array [.object [("colour", .string "red")], .null])]])) =
      (palettes.find? "Palette").map fun declaration =>
        palettes.mend declaration true (.array [.object
          [("rest", .array [.object [("colour", .string "red")],
            .null])]]) := by
  have hplain : palettes.LiteralUnionsPlain := by decide +kernel
  have hmem : palettes.declarations[1] ∈ palettes.declarations :=
    List.getElem_mem _
  exact ⟨hplain, _, hmem, rfl, List.cons_ne_nil _ _,
    map_mend_writeOut hplain hmem rfl (List.cons_ne_nil _ _) "Palette" true _⟩

/-- Each literal is as much of a list as the reference. -/
example : writeOutAlternatives palettes.declarations[1]
  [⟨.primitive .string, false⟩, ⟨.reference "Colour", true⟩] =
    [⟨.primitive .string, false⟩, ⟨.literal (.string "red"), true⟩,
      ⟨.literal (.boolean false), true⟩] := rfl

end Schema

end ShapeMend
