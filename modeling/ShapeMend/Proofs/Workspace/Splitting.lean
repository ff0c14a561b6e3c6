import ShapeMend.Proofs.Schema.Remerging
import ShapeMend.Proofs.Script.ItemTracks
import ShapeMend.Proofs.Workspace.Coherence

/-!
# Splitting a source

A text that ends with a semicolon and another one on the next line declare
together what they declare apart, so a workspace that holds them as one source
has the schema of one that holds them as two.
-/

namespace ShapeMend

open ShapeMend.Script ShapeMend.Text

/-! ## Declarations before they are merged -/

def Declaration.exporting (exportAll : Bool)
    (declaration : Declaration) : Declaration :=
  { declaration with exported := declaration.exported || exportAll }

namespace Script

def declarationsOf (source : String) (items : List Item) : List Declaration :=
  items.filterMap fun item => (item.declaration? source).value

private theorem declarationsOf_unplaced (source other : String)
    (items : List Item) :
    declarationsOf other (items.map Item.unplaced) =
      declarationsOf source items := by
  rw [declarationsOf, List.filterMap_map]
  exact List.filterMap_congr fun item _ =>
    item.value_declaration?_unplaced source other

private theorem declarationsOf_append {first second joined : List Item}
    (hjoined : joined.map Item.unplaced = first.map Item.unplaced ++
      second.map Item.unplaced)
    (one two whole : String) :
    declarationsOf whole joined = declarationsOf one first ++
      declarationsOf two second := by
  rw [← declarationsOf_unplaced whole whole, hjoined, declarationsOf,
    List.filterMap_append, ← declarationsOf_unplaced one whole,
    ← declarationsOf_unplaced two whole]
  rfl

theorem value_mergeItems (source : String) (exportAll : Bool) (schema : Schema)
    (items : List Item) :
    (mergeItems source exportAll schema items).value =
      schema.mergeEach
        ((declarationsOf source items).map (·.exporting exportAll)) := by
  induction items generalizing schema with
  | nil => rfl
  | cons item items ih =>
      rw [mergeItems, Logged.value_bind, declarationsOf, List.filterMap_cons]
      cases (item.declaration? source).value with
      | none => exact ih schema
      | some declaration =>
          simp only [Logged.value_bind, Schema.value_mergeFrom, ih]
          rfl

end Script

/-- What a source declares, one by one. -/
def Text.Source.declarations (source : Source) : List Declaration :=
  match itemsOfText source.chars with
  | .ok items => declarationsOf source.id items
  | .error _ => []

private theorem Schema.Unmixed.exporting {declarations : List Declaration}
    (h : Unmixed declarations) (exportAll : Bool) :
    Unmixed (declarations.map (·.exporting exportAll)) := by
  intro first hfirst second hsecond hname
  obtain ⟨one, hone, rfl⟩ := List.mem_map.mp hfirst
  obtain ⟨two, htwo, rfl⟩ := List.mem_map.mp hsecond
  exact h one hone two htwo hname

theorem exists_items_of_source {source : Source} {exportAll : Bool}
    {parsed : Logged Schema}
    (h : schemaOfSource source exportAll = .ok parsed) :
    ∃ items, itemsOfText source.chars = .ok items ∧ source.declarations =
      declarationsOf source.id items ∧
      parsed.value =
        .ofDeclarations (source.declarations.map (·.exporting exportAll)) := by
  unfold schemaOfSource at h
  split at h
  · cases h
  · next items hread =>
      obtain rfl := Except.ok.inj h
      have hdeclared :
          source.declarations = declarationsOf source.id items := by
        unfold Text.Source.declarations
        rw [hread]
      exact ⟨items, hread, hdeclared, by
        rw [hdeclared]; exact value_mergeItems ..⟩

/-! ## Two texts -/

/-- A text, and another one that begins on the next line. -/
def Text.Source.followedBy (first second : Source) (id : String) : Source :=
  ⟨id, first.text ++ "\n" ++ second.text⟩

variable {first second : Source} {exportAll : Bool}
  {parsed other : Logged Schema} {stream : TokenStream}

private theorem exists_schema_followedBy
    (hfirst : schemaOfSource first exportAll = .ok parsed)
    (hsecond : schemaOfSource second exportAll = .ok other)
    (hstream : TokenStream.ofText first.chars = .ok stream)
    (hended : Ended stream.tokens) (hplain : ¬ ['#', '!'] <+: second.chars)
    (hunmixed : Schema.Unmixed (first.declarations ++ second.declarations))
    (id : String) :
    ∃ joined,
      schemaOfSource (first.followedBy second id) exportAll = .ok joined ∧
      joined.value = .ofDeclarations
        (parsed.value.declarations ++ other.value.declarations) := by
  obtain ⟨items, hread, hitems, hparsed⟩ := exists_items_of_source hfirst
  obtain ⟨more, hlater, hmore, hother⟩ := exists_items_of_source hsecond
  obtain ⟨joined, hjoined, hunplaced⟩ :=
    itemsOfText_append hstream hended hplain hread hlater
  have hchars : (first.followedBy second id).chars = first.chars ++ '\n' ::
      second.chars := by
    simp [Source.followedBy, Source.chars]
  have hdeclared :
      declarationsOf id joined = first.declarations ++ second.declarations :=
    (declarationsOf_append hunplaced first.id second.id id).trans
      (by rw [hitems, hmore])
  refine ⟨mergeItems id exportAll .empty joined, ?_, ?_⟩
  · rw [schemaOfSource, hchars, hjoined]
    rfl
  · have hexported := hunmixed.exporting exportAll
    rw [List.map_append] at hexported
    rw [hparsed, hother, Schema.ofDeclarations_merged hexported,
      value_mergeItems, hdeclared, List.map_append]
    rfl

namespace Workspace

theorem workspace_run_cons (workspace : Workspace) (operation : Operation)
    (operations : List Operation) :
    (workspace.run (operation :: operations)).2 =
      ((workspace.perform operation).2.run operations).2 :=
  rfl

theorem perform_load_of_not_mem {workspace : Workspace} {source : Source}
    {parsed : Logged Schema} (hid : source.id ∉ workspace.ids)
    (hparsed : schemaOfSource source workspace.exportAll = .ok parsed) :
    (workspace.perform (.load source.id source.text)).2 = { workspace with
      sources := workspace.sources ++
        [(source.id, ⟨Text.fingerprint source.text, parsed.value.declarations⟩)]
          } := by
  have hlookup : Keyed.lookup source.id workspace.sources = none := by
    rw [← Option.not_isSome_iff_eq_none, Keyed.isSome_lookup_iff]
    exact hid
  have hcurrent : workspace.isCurrent source.id source.text = false := by
    rw [isCurrent, hlookup]
    rfl
  have hread : workspace.read source.id source.text =
      .ok ⟨⟨Text.fingerprint source.text, parsed.value.declarations⟩,
        parsed.events⟩ := by
    rw [read, hparsed]
    rfl
  simp only [perform, load, hcurrent, hread, Except.map, Bool.false_eq_true,
    if_false]
  rw [put, Keyed.put_of_not_mem _ hid]

private theorem schema_run_load
    (hfirst : schemaOfSource first exportAll = .ok parsed) :
    ((new exportAll).run [.load first.id first.text]).2.schema.value =
      parsed.value := by
  obtain ⟨-, -, -, hparsed⟩ := exists_items_of_source hfirst
  have hnew : first.id ∉ (new exportAll).ids := List.not_mem_nil
  have hone := perform_load_of_not_mem hnew hfirst
  rw [workspace_run_cons, hone, run, value_schema]
  simp [new, hparsed, Schema.ofDeclarations_declarations]

private theorem schema_run_loads
    (hfirst : schemaOfSource first exportAll = .ok parsed)
    (hsecond : schemaOfSource second exportAll = .ok other)
    (hids : second.id ≠ first.id) :
    ((new exportAll).run
      [.load first.id first.text, .load second.id second.text]).2.schema.value =
      .ofDeclarations
        (parsed.value.declarations ++ other.value.declarations) := by
  have hnew : first.id ∉ (new exportAll).ids := List.not_mem_nil
  have hone := perform_load_of_not_mem hnew hfirst
  rw [workspace_run_cons, workspace_run_cons, hone,
    perform_load_of_not_mem (by simpa [ids, new, Keyed.keys] using hids)
      hsecond, run, value_schema]
  simp [new]

end Workspace

/-- Two sources that declare one name, the first with a gap after its last
semicolon. -/
def team : Source :=
  ⟨"team",
    "interface Team \x7b lead: Role \x7d\ntype Role = 'a' | ';'; // none"⟩

def guests : Source :=
  ⟨"guests",
    "export interface Team \x7b size: 3 \x7d type Guest = \x7b role: Role \x7d"⟩

end ShapeMend
