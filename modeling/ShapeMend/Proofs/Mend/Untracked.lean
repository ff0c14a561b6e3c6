import ShapeMend.Proofs.Mend.Entries
import ShapeMend.Proofs.Schema.Merge

/-!
# Mending without places

Where places are not tracked, it does not matter where fields are written out:
what they do depends on what is done at their references, with the trail as it
is.  So fields do first what those in front do and then what the others do, and
two schemas do the same with a trail if they differ in nothing but fields of
declarations on it.
-/

namespace ShapeMend

structure References.AgreeWith (trail : Trail) (first second : References) :
    Prop where
  enter : first.enter = .untracked ∧ second.enter = .untracked
  accept : ∀ name value,
    second.accept trail name value = first.accept trail name value
  element : ∀ name item,
    second.element trail name item = first.element trail name item
  fallback : ∀ name, second.fallback trail name = first.fallback trail name
  describesObject : ∀ name,
    second.describesObject name = first.describesObject name

theorem References.AgreeWith.refl {references : References}
    (henter : references.enter = .untracked) (trail : Trail) :
    references.AgreeWith trail references :=
  ⟨⟨henter, henter⟩, fun _ _ => rfl, fun _ _ => rfl, fun _ => rfl, fun _ => rfl⟩

namespace Mend

theorem fields_append (references : References) (owner : String)
    (location : List Nat) (trail : Trail) (index : Nat)
    (first second : List Field) (members : Members) :
    fields references owner location trail index (first ++ second) members =
      fields references owner location trail index first members >>=
        fields references owner location trail (index + first.length)
          second := by
  induction first generalizing index members with
  | nil => rfl
  | cons field first ih =>
      obtain ⟨key, optional, alternatives⟩ := field
      have hcount :
          index + 1 + first.length = index + (first.length + 1) := by omega
      simp only [List.cons_append, List.length_cons, fields, ih, hcount]
      cases Keyed.lookup key members with
      | none => simp only [Logged.pure_bind, Logged.bind_assoc]
      | some value =>
          simp only [Logged.bind_assoc]
          congr 1
          funext kept
          cases kept with
          | none => simp only [Logged.bind_assoc]
          | some value => rfl

variable {trail : Trail} {first second : References}

mutual

/-- The place of a shape does not matter, as the trail is handed on unchanged.
-/
theorem untracked_shape (hagree : first.AgreeWith trail second) (shape : Shape)
    (owner other : String) (location place : List Nat) :
    (∀ value, accept second other place trail shape value =
        accept first owner location trail shape value) ∧
      (∀ value, acceptList second other place trail shape value =
        acceptList first owner location trail shape value) ∧
      fallback second other place trail shape =
        fallback first owner location trail shape := by
  match shape with
  | .primitive primitive => exact ⟨fun _ => rfl, fun _ => rfl, rfl⟩
  | .literal literal => exact ⟨fun _ => rfl, fun _ => rfl, rfl⟩
  | .reference name =>
      refine ⟨hagree.accept name, fun value => ?_, hagree.fallback name⟩
      cases value with
      | array items =>
          simp only [acceptList]
          rw [funext (hagree.element name)]
      | _ => simp only [acceptList, hagree.describesObject name]
  | .inline inside =>
      have hobject (value : Json) :
          object second.enter trail (.inline other place)
          (fun trail members =>
            fields second other place trail 0 inside members) value =
            object first.enter trail (.inline owner location)
              (fun trail members =>
                fields first owner location trail 0 inside members) value := by
        cases value with
        | object members =>
            simp only [object, hagree.enter, Entry.untracked,
              untracked_fields hagree inside owner other location place 0 0]
        | _ => rfl
      refine ⟨fun value => ?_, fun value => ?_, hobject (.object [])⟩
      · simp only [accept, hobject]
      · cases value with
        | array items =>
            simp only [acceptList]
            rw [funext hobject]
        | _ => rfl

theorem untracked_fields (hagree : first.AgreeWith trail second)
    (list : List (FieldOf Shape)) (owner other : String)
    (location place : List Nat) (index count : Nat) (members : Members) :
    fields second other place trail count list members =
      fields first owner location trail index list members := by
  match list with
  | [] => rfl
  | ⟨key, optional, alternatives⟩ :: rest =>
      obtain ⟨haccepted, hdefault⟩ :=
        untracked_alternatives hagree alternatives owner other
          (index :: location) (count :: place) 0 0
      have hrest :=
        untracked_fields hagree rest owner other location place (index + 1)
          (count + 1)
      simp only [fields, haccepted, hdefault, hrest]

theorem untracked_alternatives (hagree : first.AgreeWith trail second)
    (alternatives : List (AlternativeOf Shape)) (owner other : String)
    (location place : List Nat) (index count : Nat) :
    (∀ value, firstAccepted second other place trail count alternatives value =
        firstAccepted first owner location trail index alternatives value) ∧
      lastFallback second other place trail count alternatives =
        lastFallback first owner location trail index alternatives := by
  match alternatives with
  | [] => exact ⟨fun _ => rfl, rfl⟩
  | ⟨shape, isArray⟩ :: rest =>
      obtain ⟨hone, hlist, hdefault⟩ :=
        untracked_shape hagree shape owner other (index :: location)
          (count :: place)
      obtain ⟨hlater, hlast⟩ :=
        untracked_alternatives hagree rest owner other location place
          (index + 1) (count + 1)
      refine ⟨fun value => by
        simp only [firstAccepted, hone, hlist, hlater], ?_⟩
      cases rest with
      | nil => simp only [lastFallback, hdefault]
      | cons next rest => exact hlast

end

end Mend

/-! ## Schemas with other fields -/

def Schema.mapFields (schema : Schema)
    (change : Declaration → List Field) : Schema where
  declarations := schema.declarations.map fun declaration =>
    { declaration with fields := change declaration }
  distinct := by
    have hnames : (schema.declarations.map fun declaration : Declaration =>
        { declaration with fields := change declaration }).map (·.name) =
          schema.declarations.map (·.name) := by
      rw [List.map_map]
      rfl
    rw [hnames]
    exact schema.distinct

theorem Schema.find?_mapFields (schema : Schema)
    (change : Declaration → List Field) (name : String) :
    (schema.mapFields change).find? name =
      (schema.find? name).map fun declaration =>
        { declaration with fields := change declaration } :=
  List.find?_map ..

theorem Schema.length_mapFields (schema : Schema)
    (change : Declaration → List Field) :
    (schema.mapFields change).declarations.length =
      schema.declarations.length :=
  List.length_map ..

/-- Entered with the trail, a declaration with other fields does over the second
references what it does with its own over the first. -/
structure Declaration.AgreeInside (declaration : Declaration)
    (fields : List Field) (trail : Trail)
    (first second : References) : Prop where
  change : declaration.kind.isObject = true → ∀ members,
    ({ declaration with fields } : Declaration).change second
      (declaration.site :: trail) members =
      declaration.change first (declaration.site :: trail) members
  accept : declaration.kind.isObject = false → ∀ value,
    ({ declaration with fields } : Declaration).acceptUnion second
      (declaration.site :: trail) value =
      declaration.acceptUnion first (declaration.site :: trail) value
  fallback : declaration.kind.isObject = false →
    ({ declaration with fields } : Declaration).unionFallback second
      (declaration.site :: trail) =
      declaration.unionFallback first (declaration.site :: trail)

namespace Declaration

variable {declaration : Declaration} {trail : Trail} {first second : References}

theorem site_fields (declaration : Declaration) (fields : List Field) :
    ({ declaration with fields } : Declaration).site = declaration.site := rfl

theorem AgreeInside.object {fields : List Field}
    (h : declaration.AgreeInside fields trail first second)
    (hkind : declaration.kind.isObject = true) (value : Json) :
    Mend.object .tracked trail declaration.site
      (({ declaration with fields } : Declaration).change second) value =
      Mend.object .tracked trail declaration.site (declaration.change first)
        value := by
  cases value with
  | object members => simp only [Mend.object, Entry.tracked, h.change hkind]
  | _ => rfl

/-- With its own fields a declaration needs nothing but that references agree
inside it. -/
private theorem AgreeInside.of_agreeWith
    (h : first.AgreeWith (declaration.site :: trail) second) :
    declaration.AgreeInside declaration.fields trail first second where
  change _ members :=
    Mend.untracked_fields h declaration.fields declaration.name declaration.name
    [] [] 0 0 members
  accept _ :=
    (Mend.untracked_alternatives h declaration.unionAlternatives
      declaration.name declaration.name unionLocation unionLocation 0 0).1
  fallback _ :=
    (Mend.untracked_alternatives h declaration.unionAlternatives
      declaration.name declaration.name unionLocation unionLocation 0 0).2

end Declaration

namespace References

section

variable {schema : Schema} {change : Declaration → List Field} {trail : Trail}
  {first second : Option References}
  (hinside : ∀ declaration ∈ schema.declarations, declaration.site ∉ trail →
    Option.Rel (declaration.AgreeInside (change declaration) trail)
      first second)
include hinside

private theorem within_agreeInside {name : String} {declaration : Declaration}
    (hfind : schema.find? name = some declaration) :
    within first trail declaration.site = none ∧
      within second trail declaration.site = none ∨
      ∃ below other, within first trail declaration.site = some below ∧
        within second trail declaration.site = some other ∧
        declaration.AgreeInside (change declaration) trail below other := by
  by_cases hsite : declaration.site ∈ trail
  · exact .inl ⟨if_pos hsite, if_pos hsite⟩
  · rw [within, within, if_neg hsite, if_neg hsite]
    rcases hinside declaration (Schema.mem_of_find?_eq_some hfind).1 hsite
      with hbelow | _
    · exact .inr ⟨_, _, rfl, rfl, hbelow⟩
    · exact .inl ⟨rfl, rfl⟩

theorem AgreeWith.ofSchema : (ofSchema .untracked schema first).AgreeWith trail
    (ofSchema .untracked (schema.mapFields change) second) where
  enter := ⟨rfl, rfl⟩
  describesObject name := by
    simp only [References.ofSchema, schema.find?_mapFields]
    cases schema.find? name <;> rfl
  accept name value := by
    simp only [References.ofSchema, schema.find?_mapFields]
    cases hfind : schema.find? name with
    | none => rfl
    | some declaration =>
        simp only [Option.map_some, declaration.site_fields]
        rcases within_agreeInside hinside hfind
          with ⟨hfirst, hsecond⟩ | ⟨_, _, hfirst, hsecond, hbelow⟩
        · simp only [hfirst, hsecond]
        · cases hkind : declaration.kind.isObject with
          | false =>
              simp only [hfirst, hsecond, Bool.false_eq_true, if_false,
                hbelow.accept hkind]
          | true => simp only [hfirst, hsecond, if_true, hbelow.object hkind]
  element name item := by
    simp only [References.ofSchema, schema.find?_mapFields]
    cases hfind : schema.find? name with
    | none => rfl
    | some declaration =>
        simp only [Option.map_some, declaration.site_fields]
        rcases within_agreeInside hinside hfind
          with ⟨hfirst, hsecond⟩ | ⟨_, _, hfirst, hsecond, hbelow⟩
        · simp only [hfirst, hsecond]
        · cases hkind : declaration.kind.isObject with
          | false => simp only [hfirst, hsecond, Bool.false_eq_true, if_false]
          | true => simp only [hfirst, hsecond, if_true, hbelow.object hkind]
  fallback name := by
    simp only [References.ofSchema, schema.find?_mapFields]
    cases hfind : schema.find? name with
    | none => rfl
    | some declaration =>
        simp only [Option.map_some, declaration.site_fields]
        rcases within_agreeInside hinside hfind
          with ⟨hfirst, hsecond⟩ | ⟨_, _, hfirst, hsecond, hbelow⟩
        · simp only [hfirst, hsecond]
        · cases hkind : declaration.kind.isObject with
          | false =>
              simp only [hfirst, hsecond, Bool.false_eq_true, if_false,
                hbelow.fallback hkind]
          | true =>
              simp only [hfirst, hsecond, if_true, Mend.fresh,
                hbelow.object hkind]

end

theorem agreeWith_mapFields {schema : Schema}
    {change : Declaration → List Field} {trail : Trail}
    (hsame : ∀ declaration ∈ schema.declarations,
      declaration.site ∉ trail → change declaration = declaration.fields)
    (depth : Nat) :
    (Entry.untracked.references schema depth).AgreeWith trail
      (Entry.untracked.references (schema.mapFields change) depth) := by
  induction depth generalizing trail with
  | zero => exact .ofSchema fun _ _ _ => .none
  | succ depth ih =>
      refine .ofSchema fun declaration hmem hsite => .some ?_
      rw [hsame declaration hmem hsite]
      refine .of_agreeWith
        (ih fun other hother hnew => hsame other hother fun hold => hnew ?_)
      exact List.mem_cons_of_mem _ hold

end References

end ShapeMend
