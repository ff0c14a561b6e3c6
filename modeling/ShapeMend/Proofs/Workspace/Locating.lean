import ShapeMend.Proofs.Schema.Collecting
import ShapeMend.Proofs.Workspace.Held

/-!
# Names are located where the schema takes them from

A name is located at the first source that declares it, and the schema of all
sources starts from the same declaration: it has the kind of that one, and its
fields come first.
-/

namespace ShapeMend

/-! ## The first declaration of a name -/

namespace Declaration

variable {declarations : List Declaration} {name : String}

private theorem exists_collect? {first : Declaration}
    (h : declarations.find? (·.name = name) = some first) :
    ∃ held, collect? declarations name = some held ∧ held.kind = first.kind ∧
      first.fields <+: held.fields ∧
        (first.kind = .literalUnion → held.fields = first.fields) := by
  obtain ⟨hname, before, after, rfl, hbefore⟩ :=
    List.find?_eq_some_iff_append.mp h
  simp only [collect?, h, Option.map_some]
  refine ⟨_, rfl, ?_⟩
  by_cases hobject : first.kind.isObject
  · have hobjects : objectsNamed name (before ++ first :: after) =
        first :: objectsNamed name after := by
      have hnone : objectsNamed name before = [] := by
        apply objectsNamed_eq_nil
        rw [List.find?_eq_none]
        simpa using hbefore
      unfold objectsNamed at hnone ⊢
      rw [List.filter_append, hnone, List.nil_append, List.filter_cons_of_pos]
      rw [hobject, Bool.and_true]
      exact hname
    rw [if_pos hobject, hobjects, List.flatMap_cons]
    refine ⟨rfl, List.prefix_append _ _, fun hunion => ?_⟩
    rw [hunion] at hobject
    exact absurd hobject Bool.false_ne_true
  · rw [if_neg hobject]
    exact ⟨rfl, List.prefix_refl _, fun _ => rfl⟩

private theorem filter_eq_singleton
    (hdistinct : (declarations.map (·.name)).Nodup) {declaration : Declaration}
    (h : declarations.find? (·.name = name) = some declaration) :
    declarations.filter (·.name = name) = [declaration] := by
  obtain ⟨hname, before, after, rfl, hbefore⟩ :=
    List.find?_eq_some_iff_append.mp h
  have hnone : before.filter (·.name = name) = [] := by
    rw [List.filter_eq_nil_iff]
    simpa using hbefore
  have hrest : after.filter (·.name = name) = [] := by
    rw [List.map_append, List.map_cons, List.nodup_append, List.nodup_cons]
      at hdistinct
    rw [List.filter_eq_nil_iff]
    intro other hother hsame
    have hnames : other.name = declaration.name :=
      (of_decide_eq_true hsame).trans (of_decide_eq_true hname).symm
    exact hdistinct.2.1.1 (hnames ▸ List.mem_map_of_mem hother)
  rw [List.filter_append, hnone, List.nil_append,
    List.filter_cons_of_pos, hrest]
  exact hname

end Declaration

/-! ## In workspaces -/

namespace Workspace

variable {workspace : Workspace} {name : String}

private theorem locate_eq_some_iff {id : String} :
    workspace.locate name = some id ↔
    ∃ before source after, workspace.sources = before ++ (id, source) :: after ∧
      (∀ earlier ∈ before, ∀ other ∈ earlier.2.declarations,
        other.name ≠ name) ∧
      ∃ declaration,
        source.declarations.find? (·.name = name) = some declaration := by
  unfold locate
  rw [Option.map_eq_some_iff]
  constructor
  · rintro ⟨⟨_, source⟩, hfound, rfl⟩
    obtain ⟨hany, before, after, hsources, hbefore⟩ :=
      List.find?_eq_some_iff_append.mp hfound
    refine ⟨before, source, after, hsources, ?_, ?_⟩
    · simpa using hbefore
    · exact Option.isSome_iff_exists.mp
        (List.find?_isSome.mpr (List.any_eq_true.mp hany))
  · rintro ⟨before, source, after, hsources, hbefore, declaration, hfound⟩
    refine ⟨(id, source),
      List.find?_eq_some_iff_append.mpr ⟨?_, before, after, hsources, ?_⟩, rfl⟩
    · obtain ⟨hname, -⟩ := List.find?_eq_some_iff_append.mp hfound
      exact List.any_eq_true.mpr
        ⟨declaration, List.mem_of_find?_eq_some hfound, hname⟩
    · simpa using hbefore

private theorem isSome_locate_iff :
    (workspace.locate name).isSome ↔ workspace.schema.value.contains name := by
  rw [Schema.contains_iff_mem_names, value_schema, Schema.names_ofDeclarations,
    List.mem_eraseDups, locate, Option.isSome_map, List.find?_isSome]
  simp only [List.any_eq_true, decide_eq_true_eq, List.mem_map,
    List.mem_flatMap]
  constructor
  · rintro ⟨source, hsource, declaration, hmem, hname⟩
    exact ⟨declaration, ⟨source, hsource, hmem⟩, hname⟩
  · rintro ⟨declaration, ⟨source, hsource, hmem⟩, hname⟩
    exact ⟨source, hsource, declaration, hmem, hname⟩

private theorem find?_schema_of_first
    {before after : List (String × LoadedSource)} {id : String}
    {source : LoadedSource} {declaration : Declaration}
    (hsources : workspace.sources = before ++ (id, source) :: after)
    (hbefore : ∀ earlier ∈ before, ∀ other ∈ earlier.2.declarations,
      other.name ≠ name)
    (hfound : source.declarations.find? (·.name = name) = some declaration) :
    ∃ entry, workspace.schema.value.find? name = some entry ∧
      entry.kind = declaration.kind ∧
      declaration.fields <+: entry.fields ∧
      (declaration.kind = .literalUnion → entry.fields =
        declaration.fields) := by
  rw [value_schema, Schema.find?_ofDeclarations]
  apply Declaration.exists_collect?
  have hnone : (before.flatMap (·.2.declarations)).find? (·.name = name) =
      none := by
    rw [List.find?_eq_none]
    intro other hother
    obtain ⟨earlier, hearlier, hmem⟩ := List.mem_flatMap.mp hother
    simpa using hbefore earlier hearlier other hmem
  rw [hsources, List.flatMap_append, List.flatMap_cons, List.find?_append,
    hnone, Option.none_or, List.find?_append, hfound, Option.some_or]

private theorem nodup_names_run (exportAll : Bool)
    (operations : List Operation) :
    ((new exportAll).run operations).2.Holds fun source =>
      (source.declarations.map (·.name)).Nodup := by
  let distinct := fun declarations : List Declaration =>
      (declarations.map (·.name)).Nodup
  have hnew : (new exportAll).Holds (distinct ·.declarations) :=
    List.forall_mem_nil _
  have hread : ReadsOnly (distinct ·.declarations) exportAll :=
    readsOnly_of_parsed fun _ parsed _ => parsed.value.distinct
  exact hnew.run hread operations

/-- After any operations a name is located exactly if the schema has it.  It is
located at the first source that declares it; what the schema has is of the kind
that is declared there, and begins with the fields declared there, which are all
if that is a literal union. -/
theorem locate_run (exportAll : Bool) (operations : List Operation)
    (name : String) :
    let workspace := ((new exportAll).run operations).2
    ((workspace.locate name).isSome ↔ workspace.schema.value.contains name) ∧
      ∀ id, workspace.locate name = some id →
        ∃ before source after declaration entry,
          workspace.sources = before ++ (id, source) :: after ∧
          Keyed.lookup id workspace.sources = some source ∧
          (∀ earlier ∈ before, ∀ other ∈ earlier.2.declarations,
            other.name ≠ name) ∧
          source.declarations.filter (·.name = name) = [declaration] ∧
          workspace.schema.value.find? name = some entry ∧
          entry.kind = declaration.kind ∧
          declaration.fields <+: entry.fields ∧
          (declaration.kind = .literalUnion → entry.fields =
            declaration.fields) := by
  intro workspace
  refine ⟨isSome_locate_iff, fun id hlocated => ?_⟩
  obtain ⟨before, source, after, hsources, hbefore, declaration, hfound⟩ :=
    locate_eq_some_iff.mp hlocated
  obtain ⟨entry, hentry, hkind, hfields, hunion⟩ :=
    find?_schema_of_first hsources hbefore hfound
  have hmem : (id, source) ∈ workspace.sources := hsources ▸ by simp
  have hnew : (new exportAll).ids.Nodup := List.nodup_nil
  have hlookup : Keyed.lookup id workspace.sources = some source :=
    Keyed.lookup_of_mem (nodup_ids_run hnew operations) hmem
  have hdistinct : (source.declarations.map (·.name)).Nodup :=
    nodup_names_run exportAll operations _ hmem
  exact ⟨before, source, after, declaration, entry, hsources, hlookup, hbefore,
    Declaration.filter_eq_singleton hdistinct hfound, hentry, hkind,
      hfields, hunion⟩

/-- A name that is declared in three sources.  The first is read again in its
place, the second is a literal union, and one that cannot be read stays as it
was. -/
def declaredThrice : List Operation := [
  .load "a" "interface Other \x7b\x7d",
  .loadMany
    [("b", "type Team = 1 | 2"), ("c", "interface Team \x7b size: 3 \x7d")],
  .load "a" "interface Team \x7b lead: string \x7d",
  .load "a" "interface Team \x7b",
  .invalidate "d"]

theorem locate_run_declaredThrice :
    let workspace := ((new true).run declaredThrice).2
    workspace.locate "Team" = some "a" ∧
      ∃ before source after declaration entry,
        workspace.sources = before ++ ("a", source) :: after ∧
        Keyed.lookup "a" workspace.sources = some source ∧
        (∀ earlier ∈ before, ∀ other ∈ earlier.2.declarations,
          other.name ≠ "Team") ∧
        source.declarations.filter (·.name = "Team") = [declaration] ∧
        workspace.schema.value.find? "Team" = some entry ∧
        entry.kind = declaration.kind ∧
        declaration.fields <+: entry.fields ∧
        (declaration.kind = .literalUnion → entry.fields =
          declaration.fields) := by
  have hlocated : ((new true).run declaredThrice).2.locate "Team" =
      some "a" := by decide +kernel
  exact ⟨hlocated, (locate_run true declaredThrice "Team").2 "a" hlocated⟩

end Workspace

end ShapeMend
