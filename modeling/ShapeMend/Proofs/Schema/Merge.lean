import ShapeMend.Event
import ShapeMend.Proofs.Schema.FieldLists

/-!
# Merging declarations

A declaration of a new name goes to the end of a schema.  Merging the
declarations of a schema in order gives the schema back, and no merge puts
anything but literals into a literal union.
-/

namespace ShapeMend.Schema

theorem eq_of_declarations {schema other : Schema}
    (h : schema.declarations = other.declarations) : schema = other := by
  cases schema
  cases other
  simp_all

theorem find?_eq_none_of_not_mem {schema : Schema} {name : String}
    (h : name ∉ schema.declarations.map (·.name)) :
    schema.find? name = none := by
  unfold find?
  rw [List.find?_eq_none]
  intro declaration hmem hname
  exact h (List.mem_map.mpr ⟨declaration, hmem, by simpa using hname⟩)

theorem contains_iff_mem_names {schema : Schema} {name : String} :
    schema.contains name ↔ name ∈ schema.names := by
  unfold contains find? names
  rw [List.find?_isSome, List.mem_map]
  simp

theorem merge_of_fresh {schema : Schema} {declaration : Declaration}
    (h : schema.find? declaration.name = none) :
    schema.merge declaration = (.inserted, schema.insert declaration h) := by
  unfold merge
  split
  · rfl
  · next first hfound => simp [h] at hfound

theorem find?_insert {schema : Schema} {declaration : Declaration}
    (hnew : schema.find? declaration.name = none) (name : String) :
    (schema.insert declaration hnew).find? name =
      (schema.find? name).or
        (if declaration.name = name then some declaration else none) := by
  unfold find? insert
  rw [List.find?_append, List.find?_singleton]
  simp

theorem merge_of_found {schema : Schema} {declaration first : Declaration}
    (h : schema.find? declaration.name = some first) :
    schema.merge declaration =
      if first.kind.isObject && declaration.kind.isObject then
        (.appended, schema.append declaration)
      else (.conflict, schema) := by
  unfold merge
  split
  · next hfound => simp [h] at hfound
  · next other hfound =>
      obtain rfl : first = other := Option.some.inj (h.symm.trans hfound)
      rfl

private theorem declarations_foldl_merge (declarations : List Declaration)
    (schema : Schema)
    (hdistinct : ((schema.declarations ++ declarations).map (·.name)).Nodup) :
    (declarations.foldl (fun schema declaration => (schema.merge declaration).2)
      schema).declarations = schema.declarations ++ declarations := by
  induction declarations generalizing schema with
  | nil => simp
  | cons declaration declarations ih =>
      have hfresh : schema.find? declaration.name = none := by
        apply find?_eq_none_of_not_mem
        intro hmem
        rw [List.map_append, List.nodup_append] at hdistinct
        exact hdistinct.2.2 _ hmem declaration.name (by simp) rfl
      simp only [List.foldl_cons, merge_of_fresh hfresh]
      rw [ih]
      · simp [insert]
      · simpa [insert] using hdistinct

theorem declarations_ofDeclarations {declarations : List Declaration}
    (hdistinct : (declarations.map (·.name)).Nodup) :
    (ofDeclarations declarations).declarations = declarations := by
  unfold ofDeclarations
  rw [declarations_foldl_merge declarations empty
    (by simpa [empty] using hdistinct)]
  rfl

theorem ofDeclarations_declarations (schema : Schema) :
    ofDeclarations schema.declarations = schema :=
  eq_of_declarations (declarations_ofDeclarations schema.distinct)

theorem eq_of_find?_eq_some {schema : Schema} {name : String}
    {first other : Declaration} (hfind : schema.find? name = some first)
    (hother : other ∈ schema.declarations) (hname : other.name = name) :
    other = first := by
  obtain ⟨hfirst, before, after, hsplit, hbefore⟩ :=
    List.find?_eq_some_iff_append.mp hfind
  have hdistinct := schema.distinct
  rw [hsplit, List.map_append, List.map_cons, List.nodup_append,
    List.nodup_cons] at hdistinct
  rw [hsplit, List.mem_append, List.mem_cons] at hother
  rcases hother with hold | rfl | hnew
  · simpa [hname] using hbefore other hold
  · rfl
  · have hsame : first.name = other.name := by
      rw [hname]
      simpa using hfirst
    exact absurd (hsame ▸ List.mem_map_of_mem hnew) hdistinct.2.1.1

theorem find?_name {schema : Schema} {declaration : Declaration}
    (hmem : declaration ∈ schema.declarations) :
    schema.find? declaration.name = some declaration := by
  cases hfind : schema.find? declaration.name with
  | none =>
      exact absurd (List.mem_map_of_mem hmem)
        (not_mem_names_of_find?_eq_none hfind)
  | some first => rw [eq_of_find?_eq_some hfind hmem rfl]

theorem value_mergeFrom (source : String) (schema : Schema)
    (declaration : Declaration) :
    (schema.mergeFrom source declaration).value =
      (schema.merge declaration).2 := by
  unfold mergeFrom
  split
  split <;> simp_all

/-! ## Literal unions -/

theorem LiteralUnionsPlain.merge {schema : Schema}
    (hplain : schema.LiteralUnionsPlain) {declaration : Declaration}
    (hdeclaration : declaration.Plain) :
    (schema.merge declaration).2.LiteralUnionsPlain := by
  unfold Schema.merge
  split
  · intro other hother
    rcases List.mem_append.mp hother with hold | hnew
    · exact hplain other hold
    · obtain rfl := List.mem_singleton.mp hnew
      exact hdeclaration
  · next first hfind =>
      split
      · next hkinds =>
          intro other hother
          obtain ⟨old, hold, rfl⟩ := List.mem_map.mp hother
          split
          · next hname =>
              obtain rfl := eq_of_find?_eq_some hfind hold hname
              intro hkind
              have hold : old.kind.isObject = false := hkind
              simp [hold] at hkinds
          · exact hplain old hold
      · exact hplain

end ShapeMend.Schema
