import ShapeMend.Proofs.Keyed
import ShapeMend.Proofs.Schema.Remerging
import ShapeMend.Schema.Descriptor.Read

/-!
# Declarations under their names

A schema is a map from names to declarations.  Merging puts a declaration
under its own name, and a descriptor that is read is the map written in it.
-/

namespace ShapeMend.Schema

def entries (schema : Schema) : List (String × Declaration) :=
  schema.declarations.map fun declaration => (declaration.name, declaration)

theorem keys_entries (schema : Schema) :
    Keyed.keys schema.entries = schema.names := by
  rw [Keyed.keys, entries, names, List.map_map]
  rfl

private theorem lookup_map_name (name : String)
    (declarations : List Declaration) :
    Keyed.lookup name (declarations.map fun declaration =>
        (declaration.name, declaration)) =
      declarations.find? (·.name = name) := by
  induction declarations with
  | nil => rfl
  | cons declaration rest ih =>
      rw [List.map_cons, Keyed.lookup, List.find?_cons, ih]
      by_cases hname : declaration.name = name <;> simp [hname]

theorem lookup_entries (schema : Schema) (name : String) :
    Keyed.lookup name schema.entries = schema.find? name :=
  lookup_map_name name schema.declarations

private theorem entries_insert {schema : Schema} {declaration : Declaration}
    (hnew : schema.find? declaration.name = none) :
    (schema.insert declaration hnew).entries =
      Keyed.put declaration.name declaration schema.entries := by
  have habsent : declaration.name ∉ Keyed.keys schema.entries := by
    rw [keys_entries]
    exact not_mem_names_of_find?_eq_none hnew
  rw [Keyed.put_of_not_mem declaration habsent, entries, insert,
    List.map_append]
  rfl

private theorem entries_append {schema : Schema}
    {declaration first : Declaration}
    (hfind : schema.find? declaration.name = some first) :
    (schema.append declaration).entries =
      Keyed.put declaration.name (first.extend declaration)
        schema.entries := by
  have hmem : declaration.name ∈ Keyed.keys schema.entries := by
    rw [← Keyed.isSome_lookup_iff, lookup_entries, hfind]
    rfl
  have hnames : (schema.append declaration).names = schema.names := by
    rw [names, append, List.map_map]
    refine List.map_congr_left fun held _ => ?_
    simp only [Function.comp_apply]
    split <;> rfl
  refine Keyed.ext_lookup ?_ ?_ fun name => ?_
  · rw [Keyed.keys_put, if_pos hmem, keys_entries, keys_entries, hnames]
  · rw [keys_entries]
    exact (schema.append declaration).distinct
  rw [lookup_entries, find?_append]
  by_cases hname : name = declaration.name
  · rw [hname, Keyed.lookup_put_self, hfind, Option.map_some,
      if_pos (mem_of_find?_eq_some hfind).2]
  · rw [Keyed.lookup_put_of_ne hname, lookup_entries]
    cases hother : schema.find? name with
    | none => rfl
    | some other =>
        have hsame := (mem_of_find?_eq_some hother).2
        rw [Option.map_some, if_neg (hsame ▸ hname)]

/-- A merge puts the declaration, or what becomes of the first one of its
name, under that name, or it changes nothing. -/
theorem entries_merge (schema : Schema) (declaration : Declaration) :
    (schema.merge declaration).2.entries =
      match Keyed.lookup declaration.name schema.entries with
      | none => Keyed.put declaration.name declaration schema.entries
      | some first =>
        if first.kind.isObject && declaration.kind.isObject then
          Keyed.put declaration.name (first.extend declaration) schema.entries
        else schema.entries := by
  rw [lookup_entries]
  cases hfind : schema.find? declaration.name with
  | none =>
      rw [merge_of_fresh hfind]
      exact entries_insert hfind
  | some first =>
      rw [merge_of_found hfind]
      dsimp only
      split
      · exact entries_append hfind
      · rfl

private theorem entries_ofDeclarations
    {keyed : List (String × Declaration)} (hdistinct : (Keyed.keys keyed).Nodup)
    (hkeyed : ∀ entry ∈ keyed, entry.1 = entry.2.name) :
    (ofDeclarations (keyed.map (·.2))).entries = keyed := by
  have hnames : (keyed.map (·.2)).map (·.name) = Keyed.keys keyed := by
    rw [List.map_map]
    exact List.map_congr_left fun entry hmem => (hkeyed entry hmem).symm
  rw [entries, declarations_ofDeclarations (hnames ▸ hdistinct), List.map_map]
  refine (List.map_congr_left fun entry hmem => ?_).trans (List.map_id keyed)
  exact Prod.ext (hkeyed entry hmem).symm rfl

/-- What is loaded are the entries of the text, of a repeated key the last. -/
theorem entries_ofDescriptor {text : String} {schema : Schema}
    (h : ofDescriptor text = .ok schema) :
    ∃ read, Json.runScan Descriptor.entries text.toUTF8.toList = .ok read ∧
      schema.entries = Keyed.ofEntries read := by
  rw [ofDescriptor] at h
  cases hread : Json.runScan Descriptor.entries text.toUTF8.toList with
  | error error =>
      rw [hread] at h
      cases h
  | ok read =>
      rw [hread] at h
      dsimp only at h
      refine ⟨read, rfl, ?_⟩
      split at h
      · cases h
      · next hnone =>
          obtain rfl := Except.ok.inj h
          refine entries_ofDeclarations (Keyed.nodup_keys_ofEntries read) ?_
          intro entry hmem
          simpa using List.find?_eq_none.mp hnone entry hmem

end ShapeMend.Schema
