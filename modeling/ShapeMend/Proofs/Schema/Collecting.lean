import Mathlib.Data.List.Induction
import ShapeMend.Proofs.Schema.Remerging

/-!
# What merging comes to

Declarations that are merged in order come to one declaration for each name, in
the order in which the names occur first.  The first declaration of a name
decides: a literal union stays as it is, and an object takes up the fields of
all objects of its name, those that come after a refused literal union included.
-/

namespace ShapeMend

namespace Declaration

def objectsNamed (name : String)
    (declarations : List Declaration) : List Declaration :=
  declarations.filter fun declaration =>
    declaration.name = name && declaration.kind.isObject

/-- What the declarations under a name come to: the first one, with the fields
of all objects under the name if it is an object, exported if one of them is. -/
def collect? (declarations : List Declaration) (name : String) :
    Option Declaration :=
  (declarations.find? (·.name = name)).map fun first =>
    if first.kind.isObject then
      { first with
        exported := (objectsNamed name declarations).any (·.exported)
        fields := (objectsNamed name declarations).flatMap (·.fields) }
    else first

/-- What a declaration does that comes after others.  Their first declaration of
its name decides. -/
def outcomeAfter (declarations : List Declaration)
    (declaration : Declaration) : MergeOutcome :=
  match declarations.find? (·.name = declaration.name) with
  | none => .inserted
  | some first =>
      if first.kind.isObject && declaration.kind.isObject then .appended
        else .conflict

def joined (declaration : Declaration) : Option Declaration → Declaration
  | none => declaration
  | some held =>
    if held.kind.isObject && declaration.kind.isObject then
      held.extend declaration
    else held

variable {declarations : List Declaration} {name : String}

theorem objectsNamed_eq_nil (h : declarations.find? (·.name = name) = none) :
    objectsNamed name declarations = [] := by
  rw [objectsNamed, List.filter_eq_nil_iff]
  intro declaration hmem
  have hname : declaration.name ≠ name := by
    simpa using List.find?_eq_none.mp h declaration hmem
  simp [hname]

private theorem objectsNamed_concat (declarations : List Declaration)
    (declaration : Declaration) :
    objectsNamed name (declarations ++ [declaration]) =
      objectsNamed name declarations ++
      if declaration.name = name ∧ declaration.kind.isObject then [declaration]
      else [] := by
  rw [objectsNamed, List.filter_append, objectsNamed]
  by_cases hnamed : declaration.name = name ∧ declaration.kind.isObject
  · rw [if_pos hnamed, List.filter_cons_of_pos (by simpa using hnamed),
      List.filter_nil]
  · rw [if_neg hnamed, List.filter_cons_of_neg (by simpa using hnamed),
      List.filter_nil]

private theorem exists_first_of_collect? {held : Declaration}
    (h : collect? declarations name = some held) :
    ∃ first, declarations.find? (·.name = name) = some first ∧
      first.kind = held.kind := by
  obtain ⟨first, hfirst, rfl⟩ := Option.map_eq_some_iff.mp h
  refine ⟨first, hfirst, ?_⟩
  split <;> rfl

private theorem collect?_concat (declarations : List Declaration)
    (declaration : Declaration) (name : String) :
    collect? (declarations ++ [declaration]) name =
      if declaration.name = name then
        some (declaration.joined (collect? declarations name))
      else collect? declarations name := by
  unfold collect?
  rw [List.find?_append, List.find?_singleton, objectsNamed_concat]
  by_cases hname : declaration.name = name
  · cases hfirst : declarations.find? (·.name = name) with
    | none =>
        rw [objectsNamed_eq_nil hfirst]
        subst hname
        cases hobject : declaration.kind.isObject <;> simp [hobject, joined]
    | some first =>
        cases hheld : first.kind.isObject <;> cases hobject :
          declaration.kind.isObject <;>
          simp [hname, hheld, hobject, joined, extend]
  · simp [hname]

end Declaration

private theorem eraseDups_concat (seen : List String) (name : String) :
    (seen ++ [name]).eraseDups = seen.eraseDups ++ if name ∈ seen then []
      else [name] := by
  rw [List.eraseDups_append, List.removeAll]
  by_cases hseen : name ∈ seen
  · rw [if_pos hseen, List.filter_cons_of_neg (by simpa using hseen)]
    rfl
  · rw [if_neg hseen, List.filter_cons_of_pos (by simpa using hseen)]
    rfl

open Declaration

namespace Schema

variable {schema : Schema} {declaration : Declaration}

private theorem find?_merge (schema : Schema) (declaration : Declaration)
    (name : String) :
    (schema.merge declaration).2.find? name =
      if declaration.name = name then
        some (declaration.joined (schema.find? name))
      else schema.find? name := by
  split
  · next hname =>
      subst hname
      cases hfound : schema.find? declaration.name with
      | none =>
          rw [merge_of_fresh hfound, find?_insert, hfound, if_pos rfl,
            Option.none_or, joined]
      | some held =>
          rw [merge_of_found hfound, joined]
          split
          · rw [find?_append, hfound, Option.map_some,
              if_pos (mem_of_find?_eq_some hfound).2]
          · exact hfound
  · next hname => exact find?_merge_of_ne hname

private theorem names_merge (schema : Schema) (declaration : Declaration) :
    (schema.merge declaration).2.names =
      schema.names ++ if declaration.name ∈ schema.names then []
        else [declaration.name] := by
  simp only [← contains_iff_mem_names, contains]
  cases hfound : schema.find? declaration.name with
  | none => simp [merge_of_fresh hfound, names, insert]
  | some held =>
      have hnames : (schema.append declaration).names = schema.names := by
        rw [names, append, List.map_map]
        refine List.map_congr_left fun first _ => ?_
        simp only [Function.comp_apply]
        split <;> rfl
      rw [merge_of_found hfound]
      split <;> simp [hnames]

theorem ofDeclarations_concat (declarations : List Declaration)
    (declaration : Declaration) :
    ofDeclarations (declarations ++ [declaration]) =
      ((ofDeclarations declarations).merge declaration).2 :=
  mergeEach_append empty declarations [declaration]

theorem find?_ofDeclarations (declarations : List Declaration) (name : String) :
    (ofDeclarations declarations).find? name = collect? declarations name := by
  induction declarations using List.reverseRecOn with
  | nil => rfl
  | append_singleton declarations declaration ih =>
      rw [ofDeclarations_concat, find?_merge, collect?_concat, ih]

theorem names_ofDeclarations (declarations : List Declaration) :
    (ofDeclarations declarations).names =
      (declarations.map (·.name)).eraseDups := by
  induction declarations using List.reverseRecOn with
  | nil => rfl
  | append_singleton declarations declaration ih =>
      rw [ofDeclarations_concat, names_merge, ih, List.map_append,
        List.map_singleton, eraseDups_concat]
      simp only [List.mem_eraseDups]

private theorem merge_ofDeclarations (declarations : List Declaration)
    (declaration : Declaration) :
    ((ofDeclarations declarations).merge declaration).1 =
      outcomeAfter declarations declaration := by
  cases hheld : (ofDeclarations declarations).find? declaration.name with
  | none =>
      rw [merge_of_fresh hheld]
      rw [find?_ofDeclarations, collect?, Option.map_eq_none_iff] at hheld
      rw [outcomeAfter, hheld]
  | some held =>
      rw [merge_of_found hheld]
      rw [find?_ofDeclarations] at hheld
      obtain ⟨first, hfirst, hkind⟩ := exists_first_of_collect? hheld
      rw [outcomeAfter, hfirst, ← hkind]
      dsimp only
      split <;> rfl

private theorem merge_of_conflict
    (h : (schema.merge declaration).1 = .conflict) :
    (schema.merge declaration).2 = schema := by
  cases hfound : schema.find? declaration.name with
  | none => simp [merge_of_fresh hfound] at h
  | some held =>
      rw [merge_of_found hfound] at h ⊢
      split at h
      · cases h
      · rw [if_neg (by assumption)]

/-- Merging declarations in order gives each name once, where it occurs first,
with what its declarations come to; every merge answers by the first declaration
of the name, a conflict changes nothing, and what was merged is merged to
itself. -/
theorem ofDeclarations_collects (declarations : List Declaration) :
    (ofDeclarations declarations).names =
      (declarations.map (·.name)).eraseDups ∧
      (∀ name,
        (ofDeclarations declarations).find? name = collect? declarations name) ∧
      (∀ declaration,
        ((ofDeclarations declarations).merge declaration).1 =
          outcomeAfter declarations declaration ∧
          (outcomeAfter declarations declaration = .conflict →
            ((ofDeclarations declarations).merge declaration).2 =
              ofDeclarations declarations)) ∧
      ofDeclarations (ofDeclarations declarations).declarations =
        ofDeclarations declarations := by
  refine ⟨names_ofDeclarations declarations, find?_ofDeclarations declarations,
    fun declaration => ⟨?_, fun h => ?_⟩,
    ofDeclarations_declarations _⟩
  · exact merge_ofDeclarations declarations declaration
  · exact merge_of_conflict
      ((merge_ofDeclarations declarations declaration).trans h)

end Schema

end ShapeMend
