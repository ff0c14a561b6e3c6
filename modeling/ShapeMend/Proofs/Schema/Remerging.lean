import ShapeMend.Proofs.Schema.WellFormed

/-!
# Merging what was merged before

Declarations may be merged in parts, and the parts merged afterwards, as long as
no name is both a union of literals and an object.  Otherwise a part may keep a
declaration that would have been refused, and refuse those that would have been
kept.
-/

namespace ShapeMend

namespace Schema

def mergeEach (schema : Schema) (declarations : List Declaration) : Schema :=
  declarations.foldl
    (fun schema declaration => (schema.merge declaration).2) schema

def KindsAs (objects : String → Bool)
    (declarations : List Declaration) : Prop :=
  ∀ declaration ∈ declarations,
    declaration.kind.isObject = objects declaration.name

/-- No name is both a union of literals and an object. -/
def Unmixed (declarations : List Declaration) : Prop :=
  ∀ first ∈ declarations, ∀ second ∈ declarations, first.name = second.name →
    first.kind.isObject = second.kind.isObject

instance (declarations : List Declaration) : Decidable (Unmixed declarations) :=
  inferInstanceAs (Decidable (∀ first ∈ declarations, ∀ second ∈ declarations,
    first.name = second.name →
    first.kind.isObject = second.kind.isObject))

variable {objects : String → Bool} {schema other : Schema}
  {declaration first second : Declaration}
  {declarations : List Declaration}

theorem mergeEach_cons (schema : Schema) (declaration : Declaration)
    (declarations : List Declaration) :
    schema.mergeEach (declaration :: declarations) =
      (schema.merge declaration).2.mergeEach declarations :=
  rfl

theorem mergeEach_append (schema : Schema)
    (declarations more : List Declaration) :
    schema.mergeEach (declarations ++ more) =
      (schema.mergeEach declarations).mergeEach more :=
  List.foldl_append

theorem find?_append (schema : Schema) (declaration : Declaration)
    (name : String) :
    (schema.append declaration).find? name = (schema.find? name).map fun held =>
      if held.name = declaration.name then held.extend declaration
      else held := by
  unfold find? append
  rw [List.find?_map]
  congr 2
  funext held
  simp only [Function.comp_apply]
  split <;> rfl

theorem map_extend_of_ne
    (hne : ∀ held ∈ declarations, held.name ≠ declaration.name) :
    (declarations.map fun held => if held.name =
      declaration.name then held.extend declaration else held) =
      declarations :=
  (List.map_congr_left fun held hheld => if_neg (hne held hheld)).trans
    (List.map_id' declarations)

theorem find?_merge_of_ne {name : String} (hne : declaration.name ≠ name) :
    (schema.merge declaration).2.find? name = schema.find? name := by
  cases hfound : schema.find? declaration.name with
  | none => rw [merge_of_fresh hfound, find?_insert, if_neg hne, Option.or_none]
  | some held =>
      rw [merge_of_found hfound]
      split
      · rw [find?_append]
        cases hother : schema.find? name with
        | none => rfl
        | some kept =>
            have hname := (mem_of_find?_eq_some hother).2
            rw [Option.map_some, if_neg (by rw [hname]; exact hne.symm)]
      · rfl

theorem exists_find?_merge (schema : Schema) (declaration : Declaration) :
    ∃ held,
      (schema.merge declaration).2.find? declaration.name = some held := by
  cases hfound : schema.find? declaration.name with
  | none =>
      exact ⟨declaration, by
        rw [merge_of_fresh hfound, find?_insert, hfound, if_pos rfl,
          Option.none_or]⟩
  | some held =>
      rw [merge_of_found hfound]
      split
      · exact ⟨_, by rw [find?_append, hfound, Option.map_some]⟩
      · exact ⟨held, hfound⟩

private theorem merge_comm {held : Declaration}
    (hheld : schema.find? declaration.name = some held)
    (hne : first.name ≠ declaration.name) :
    ((schema.merge first).2.merge declaration).2 =
      ((schema.merge declaration).2.merge first).2 := by
  have hstill : (schema.merge first).2.find? declaration.name = some held :=
    (find?_merge_of_ne hne).trans hheld
  rw [merge_of_found hheld, merge_of_found hstill]
  split
  · have hfind : (schema.append declaration).find? first.name =
        schema.find? first.name := by
      rw [find?_append]
      cases hfirst : schema.find? first.name with
      | none => rfl
      | some kept =>
          rw [Option.map_some,
            if_neg (by rwa [(mem_of_find?_eq_some hfirst).2])]
    cases hfirst : schema.find? first.name with
    | none =>
        rw [merge_of_fresh hfirst, merge_of_fresh (hfind.trans hfirst)]
        exact eq_of_declarations (by simp [insert, append, hne])
    | some kept =>
        rw [merge_of_found hfirst, merge_of_found (hfind.trans hfirst)]
        split
        · refine eq_of_declarations ?_
          simp only [append, List.map_map]
          refine List.map_congr_left fun old _ => ?_
          simp only [Function.comp_apply]
          by_cases hold : old.name = declaration.name
          · simp [hold, Declaration.extend, hne.symm]
          · by_cases hother : old.name = first.name <;>
              simp [hold, hother, Declaration.extend, hne]
        · rfl
  · rfl

private theorem mergeEach_merge {held : Declaration}
    (hheld : schema.find? declaration.name = some held)
    (hne : ∀ other ∈ declarations, other.name ≠ declaration.name) :
    ((schema.mergeEach declarations).merge declaration).2 =
      (schema.merge declaration).2.mergeEach declarations := by
  induction declarations generalizing schema with
  | nil => rfl
  | cons first declarations ih =>
      obtain ⟨hfirst, hlater⟩ := List.forall_mem_cons.mp hne
      have hstill : (schema.merge first).2.find? declaration.name = some held :=
        (find?_merge_of_ne hfirst).trans hheld
      rw [mergeEach_cons, ih hstill hlater, merge_comm hheld hfirst,
        mergeEach_cons]

private theorem exists_find?_mergeEach (schema : Schema) {name : String}
    (hname : (∃ held,
      schema.find? name = some held) ∨ name ∈ declarations.map (·.name)) :
    ∃ held, (schema.mergeEach declarations).find? name = some held := by
  induction declarations generalizing schema with
  | nil => exact hname.resolve_right List.not_mem_nil
  | cons first declarations ih =>
      rw [mergeEach_cons]
      refine ih (schema.merge first).2 ?_
      by_cases hfirst : first.name = name
      · exact .inl (hfirst ▸ exists_find?_merge schema first)
      rw [find?_merge_of_ne hfirst]
      rw [List.map_cons, List.mem_cons] at hname
      exact hname.imp_right fun hname => hname.resolve_left (Ne.symm hfirst)

theorem merge_object {held : Declaration}
    (hheld : schema.find? declaration.name = some held)
    (hobjects : held.kind.isObject ∧ declaration.kind.isObject) :
    (schema.merge declaration).2 = schema.append declaration := by
  rw [merge_of_found hheld, if_pos (by simpa using hobjects)]

private theorem merge_refused {held : Declaration}
    (hheld : schema.find? declaration.name = some held)
    (hobject : ¬ declaration.kind.isObject) :
    (schema.merge declaration).2 = schema := by
  rw [merge_of_found hheld, if_neg (by simp [hobject])]

private theorem merge_extend (hname : second.name = first.name)
    (hfirst : first.kind.isObject) (hsecond : second.kind.isObject)
    (hheld : ∀ held, schema.find? first.name = some held → held.kind.isObject) :
    (schema.merge (first.extend second)).2 =
      ((schema.merge first).2.merge second).2 := by
  cases hfind : schema.find? first.name with
  | none =>
      have hfound : (schema.insert first hfind).find? second.name =
          some first := by
        rw [find?_insert, hname, hfind, if_pos rfl, Option.none_or]
      have hextended : schema.find? (first.extend second).name = none := hfind
      have hold : ∀ old ∈ schema.declarations, old.name ≠ first.name :=
        fun old hold hsame =>
        not_mem_names_of_find?_eq_none hfind (hsame ▸ List.mem_map_of_mem hold)
      rw [merge_of_fresh hextended, merge_of_fresh hfind,
        merge_object hfound ⟨hfirst, hsecond⟩]
      refine eq_of_declarations ?_
      rw [← hname] at hold
      simp only [insert, append, List.map_append, List.map_singleton,
        map_extend_of_ne hold, if_pos hname.symm]
  | some held =>
      have hobject := hheld held hfind
      have hfound : (schema.append first).find? second.name =
          some (held.extend first) := by
        rw [find?_append, hname, hfind, Option.map_some,
          if_pos (mem_of_find?_eq_some hfind).2]
      have hextended :
          schema.find? (first.extend second).name = some held := hfind
      rw [merge_object hextended ⟨hobject, hfirst⟩,
        merge_object hfind ⟨hobject, hfirst⟩,
        merge_object hfound ⟨hobject, hsecond⟩]
      refine eq_of_declarations ?_
      simp only [append, List.map_map, hname]
      refine List.map_congr_left fun old _ => ?_
      by_cases hold : old.name = first.name <;>
        simp [hold, Declaration.extend, List.append_assoc, Bool.or_assoc]

/-! ## Merging parts -/

private theorem KindsAs.mergeEach (h : KindsAs objects schema.declarations)
    (hmore : KindsAs objects declarations) :
    KindsAs objects (schema.mergeEach declarations).declarations :=
  forall_foldl_merge (fun _ hfirst _ => hfirst) h hmore

theorem KindsAs.merge (h : KindsAs objects schema.declarations)
    (hdeclaration : declaration.kind.isObject = objects declaration.name) :
    KindsAs objects (schema.merge declaration).2.declarations :=
  forall_merge (fun _ hfirst _ => hfirst) h hdeclaration

private theorem mergeEach_map_extend (h : KindsAs objects schema.declarations)
    (hkinds : KindsAs objects declarations)
    (hdistinct : (declarations.map (·.name)).Nodup)
    (hobject : declaration.kind.isObject)
    (hkind : declaration.kind.isObject = objects declaration.name)
    (hmem : declaration.name ∈ declarations.map (·.name)) :
    schema.mergeEach (declarations.map fun held =>
        if held.name = declaration.name then held.extend declaration
        else held) =
      ((schema.mergeEach declarations).merge declaration).2 := by
  induction declarations generalizing schema with
  | nil => cases hmem
  | cons first declarations ih =>
      obtain ⟨hfirst, hlater⟩ := List.forall_mem_cons.mp hkinds
      rw [List.map_cons, List.nodup_cons] at hdistinct
      have hmerged := h.merge hfirst
      by_cases hname : first.name = declaration.name
      · have hothers : ∀ other ∈ declarations, other.name ≠ declaration.name :=
          fun other hother hsame =>
          hdistinct.1 (hname ▸ hsame ▸ List.mem_map_of_mem hother)
        obtain ⟨held, hheld⟩ := exists_find?_merge schema first
        rw [hname] at hheld
        have hextend : (schema.merge (first.extend declaration)).2 =
            ((schema.merge first).2.merge declaration).2 := by
          refine merge_extend hname.symm ?_ hobject fun held hheld => ?_
          · rw [hfirst, hname, ← hkind, hobject]
          · obtain ⟨hmem, hsame⟩ := mem_of_find?_eq_some hheld
            rw [h held hmem, hsame, hname, ← hkind, hobject]
        rw [List.map_cons, if_pos hname, map_extend_of_ne hothers,
          mergeEach_cons, mergeEach_cons, hextend]
        exact (mergeEach_merge hheld hothers).symm
      · have hrest : declaration.name ∈ declarations.map (·.name) := by
          rcases List.mem_cons.mp hmem with hsame | hrest
          · exact absurd hsame.symm hname
          · exact hrest
        rw [List.map_cons, if_neg hname]
        exact ih hmerged hlater hdistinct.2 hrest

private theorem mergeEach_merge_declarations
    (hschema : KindsAs objects schema.declarations)
    (hother : KindsAs objects other.declarations)
    (hdeclaration : declaration.kind.isObject = objects declaration.name) :
    schema.mergeEach (other.merge declaration).2.declarations =
      ((schema.mergeEach other.declarations).merge declaration).2 := by
  cases hfound : other.find? declaration.name with
  | none =>
      rw [merge_of_fresh hfound]
      exact schema.mergeEach_append other.declarations [declaration]
  | some held =>
      obtain ⟨hmem, hname⟩ := mem_of_find?_eq_some hfound
      by_cases hobject : declaration.kind.isObject
      · have hheld : held.kind.isObject := by
          rw [hother held hmem, hname, ← hdeclaration, hobject]
        rw [merge_object hfound ⟨hheld, hobject⟩]
        exact mergeEach_map_extend hschema hother other.distinct hobject
          hdeclaration
          (hname ▸ List.mem_map_of_mem hmem)
      · have hnamed : declaration.name ∈ other.declarations.map (·.name) :=
          hname ▸ List.mem_map_of_mem hmem
        obtain ⟨kept, hkept⟩ := exists_find?_mergeEach schema (.inr hnamed)
        rw [merge_refused hfound hobject, merge_refused hkept hobject]

private theorem mergeEach_mergeEach
    (hschema : KindsAs objects schema.declarations)
    (hother : KindsAs objects other.declarations)
    (hdeclarations : KindsAs objects declarations) :
    schema.mergeEach (other.mergeEach declarations).declarations =
      (schema.mergeEach other.declarations).mergeEach declarations := by
  induction declarations generalizing other with
  | nil => rfl
  | cons first declarations ih =>
      obtain ⟨hfirst, hlater⟩ := List.forall_mem_cons.mp hdeclarations
      rw [mergeEach_cons, mergeEach_cons, ih (hother.merge hfirst) hlater,
        mergeEach_merge_declarations hschema hother hfirst]

private theorem Unmixed.exists_kindsAs (h : Unmixed declarations) :
    ∃ objects, KindsAs objects declarations := by
  refine ⟨fun name => (declarations.find? (·.name = name)).any
    (·.kind.isObject), fun declaration hmem => ?_⟩
  cases hfind : declarations.find? (·.name = declaration.name) with
  | none =>
      exact absurd (decide_eq_true rfl)
        (List.find?_eq_none.mp hfind declaration hmem)
  | some first =>
      have hname : first.name = declaration.name := by
        simpa using List.find?_some hfind
      simp only [hfind, Option.any_some]
      exact h declaration hmem first (List.mem_of_find?_eq_some hfind)
        hname.symm

theorem ofDeclarations_merged {more : List Declaration}
    (h : Unmixed (declarations ++ more)) :
    ofDeclarations ((ofDeclarations declarations).declarations ++
      (ofDeclarations more).declarations) =
      ofDeclarations (declarations ++ more) := by
  obtain ⟨objects, hobjects⟩ := h.exists_kindsAs
  obtain ⟨hdeclarations, hmore⟩ := List.forall_mem_append.mp hobjects
  have hnone : KindsAs objects empty.declarations := List.forall_mem_nil _
  calc ofDeclarations ((ofDeclarations declarations).declarations ++
    (ofDeclarations more).declarations)
      = (ofDeclarations (ofDeclarations declarations).declarations).mergeEach
          (empty.mergeEach more).declarations := mergeEach_append _ _ _
    _ = (ofDeclarations declarations).mergeEach
      (empty.mergeEach more).declarations := by
        rw [ofDeclarations_declarations]
    _ = (ofDeclarations declarations).mergeEach more :=
        mergeEach_mergeEach (hnone.mergeEach hdeclarations) hnone hmore
    _ = ofDeclarations (declarations ++ more) := (mergeEach_append _ _ _).symm

end Schema

end ShapeMend
