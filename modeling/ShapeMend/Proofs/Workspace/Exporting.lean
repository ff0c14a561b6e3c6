import ShapeMend.Mend.Basic
import ShapeMend.Module.Emit
import ShapeMend.Proofs.Mend.Sources
import ShapeMend.Proofs.Workspace.Coherence

/-!
# Ways to export everything

All declarations can be exported while a source is read, in a workspace that
does so for every source, or when a module is emitted.  The mark of an exported
declaration decides nothing else: it is kept by every merge, whichever
declarations are refused, and neither mending nor the rest of a module depends
on it.
-/

namespace ShapeMend

def Declaration.asExported (declaration : Declaration) : Declaration :=
  { declaration with exported := true }

theorem Declaration.asExported_extend (first second : Declaration) :
    (first.extend second).asExported =
      first.asExported.extend second.asExported :=
  rfl

namespace Schema

variable (schema : Schema)

def asExported : Schema where
  declarations := schema.declarations.map Declaration.asExported
  distinct := by
    have hnames : (schema.declarations.map Declaration.asExported).map
        (·.name) = schema.declarations.map (·.name) := by
      rw [List.map_map]
      rfl
    rw [hnames]
    exact schema.distinct

/-- A value that is mended against the declaration of that name, if there is
one. -/
def mendNamed (name : String) (isArray : Bool) (value : Json) :
    Option (Logged Json) :=
  (schema.find? name).map fun declaration =>
    schema.mend declaration isArray value

/-- The first schema is the second one with every declaration exported.  Its
module is the one in which everything of the second is exported, and both mend
every value alike. -/
structure ExportsAll (all plain : Schema) : Prop where
  eq_asExported : all = plain.asExported
  emit_eq : ∀ header, all.emit false header = plain.emit true header
  mendNamed_eq : ∀ name isArray value,
    all.mendNamed name isArray value = plain.mendNamed name isArray value

@[simp] theorem find?_asExported (name : String) :
    schema.asExported.find? name =
      (schema.find? name).map Declaration.asExported :=
  List.find?_map ..

@[simp] theorem contains_asExported (name : String) :
    schema.asExported.contains name = schema.contains name := by
  simp [contains]

@[simp] theorem names_asExported : schema.asExported.names = schema.names :=
  List.map_map

/-! ## Merging -/

private theorem asExported_append (declaration : Declaration) :
    (schema.append declaration).asExported =
      schema.asExported.append declaration.asExported := by
  refine eq_of_declarations ?_
  simp only [append, asExported, List.map_map]
  refine List.map_congr_left fun first _ => ?_
  simp only [Function.comp_apply, apply_ite Declaration.asExported,
    Declaration.asExported_extend]
  rfl

private theorem merge_asExported (declaration : Declaration) :
    schema.asExported.merge declaration.asExported =
    ((schema.merge declaration).1,
      (schema.merge declaration).2.asExported) := by
  cases hfound : schema.find? declaration.name with
  | none =>
      have habsent : schema.asExported.find? declaration.asExported.name =
          none := by
        rw [find?_asExported]
        exact congrArg (Option.map Declaration.asExported) hfound
      rw [merge_of_fresh hfound, merge_of_fresh habsent]
      refine Prod.ext rfl (eq_of_declarations ?_)
      simp only [insert, asExported, List.map_append, List.map_cons,
        List.map_nil]
  | some first =>
      have hpresent : schema.asExported.find? declaration.asExported.name =
          some first.asExported := by
        rw [find?_asExported]
        exact congrArg (Option.map Declaration.asExported) hfound
      rw [merge_of_found hfound, merge_of_found hpresent]
      have hfirst : first.asExported.kind = first.kind := rfl
      have hdeclaration : declaration.asExported.kind = declaration.kind := rfl
      rw [hfirst, hdeclaration]
      split
      · rw [asExported_append]
      · rfl

theorem mergeFrom_asExported (source : String) (declaration : Declaration) :
    schema.asExported.mergeFrom source declaration.asExported =
      ⟨(schema.mergeFrom source declaration).value.asExported,
        (schema.mergeFrom source declaration).events⟩ := by
  unfold mergeFrom
  rw [merge_asExported]
  obtain ⟨outcome, merged⟩ := schema.merge declaration
  cases outcome <;> rfl

/-! ## Mending -/

private theorem references_ofSchema_asExported (inner : Option References) :
    References.ofSchema .tracked schema.asExported inner =
      .ofSchema .tracked schema inner := by
  unfold References.ofSchema
  congr 1
  · funext trail name value
    rw [find?_asExported]
    cases schema.find? name <;> rfl
  · funext trail name item
    rw [find?_asExported]
    cases schema.find? name <;> rfl
  · funext trail name
    rw [find?_asExported]
    cases schema.find? name <;> rfl
  · funext name
    rw [find?_asExported]
    cases schema.find? name <;> rfl

private theorem references_asExported (depth : Nat) :
    schema.asExported.references depth = schema.references depth := by
  induction depth with
  | zero => exact schema.references_ofSchema_asExported none
  | succ depth ih =>
      calc schema.asExported.references (depth + 1)
          = .ofSchema .tracked schema
            (some (schema.asExported.references depth)) :=
            schema.references_ofSchema_asExported _
        _ = .ofSchema .tracked schema
          (some (schema.references depth)) := by rw [ih]

private theorem mend_asExported (declaration : Declaration) (isArray : Bool)
    (value : Json) :
    schema.asExported.mend declaration.asExported isArray value =
      schema.mend declaration isArray value := by
  have hlength : schema.asExported.declarations.length =
      schema.declarations.length := List.length_map _
  have hone : schema.asExported.mendOne declaration.asExported =
      schema.mendOne declaration := by
    funext value
    unfold mendOne
    rw [hlength, references_asExported]
    rfl
  unfold mend mendList
  rw [hone]
  rfl

/-! ## Emitting -/

private theorem moduleText_asExported (header : String) :
    schema.asExported.moduleText false header =
      schema.moduleText true header := by
  have hdeclaration : ∀ declaration : Declaration,
      Module.declarationText schema.bindings false declaration.asExported =
        Module.declarationText schema.bindings true declaration := by
    intro declaration
    simp [Module.declarationText, Declaration.asExported]
  have hbindings : schema.asExported.bindings = schema.bindings := by
    rw [bindings, names_asExported, bindings]
  have hdeclarations : schema.asExported.declarations =
      schema.declarations.map Declaration.asExported := rfl
  simp only [moduleText, hbindings, hdeclarations, List.map_map,
    Function.comp_def, hdeclaration]

private theorem undeclared_asExported :
    schema.asExported.undeclared = schema.undeclared := by
  have hcontains : schema.asExported.contains = schema.contains :=
    funext schema.contains_asExported
  rw [undeclared, hcontains, undeclared, asExported, List.flatMap_map]
  rfl

private theorem exportsAll_asExported :
    schema.asExported.ExportsAll schema where
  eq_asExported := rfl
  emit_eq header := by
    rw [emit, moduleText_asExported, undeclared_asExported, emit]
  mendNamed_eq name isArray value := by
    rw [mendNamed, find?_asExported, Option.map_map, mendNamed]
    exact congrArg (Option.map · _)
      (funext
        fun declaration => schema.mend_asExported declaration isArray value)

end Schema

/-! ## Reading sources -/

def Logged.asExported (result : Logged Schema) : Logged Schema :=
  ⟨result.value.asExported, result.events⟩

private theorem Logged.asExported_bind {α : Type} (first : Logged α)
    {next : α → Logged Schema} :
    (first >>= next).asExported = first >>= fun value =>
      (next value).asExported :=
  rfl

private theorem Script.mergeItems_asExported (source : String) (schema : Schema)
    (items : List Script.Item) :
    mergeItems source true schema.asExported items =
      (mergeItems source false schema items).asExported := by
  induction items generalizing schema with
  | nil => rfl
  | cons item items ih =>
      rw [mergeItems, mergeItems, Logged.asExported_bind]
      congr 1
      funext declared
      cases declared with
      | none => exact ih schema
      | some declaration =>
          have hexported :
              ({ declaration with exported := declaration.exported || true } :
                Declaration) =
              ({ declaration with exported := declaration.exported || false } :
                Declaration).asExported := by
            simp [Declaration.asExported]
          simp only [hexported, Schema.mergeFrom_asExported,
            Logged.asExported_bind, ← ih]
          rfl

theorem schemaOfSource_exportAll (source : Text.Source) :
    schemaOfSource source true =
      (schemaOfSource source false).map Logged.asExported := by
  unfold schemaOfSource
  cases Script.itemsOfText source.chars with
  | error error => rfl
  | ok items =>
      exact congrArg Except.ok
        (Script.mergeItems_asExported source.id .empty items)

/-! ## Workspaces -/

def LoadedSource.asExported (source : LoadedSource) : LoadedSource :=
  { source with declarations := source.declarations.map Declaration.asExported }

namespace Workspace

def asExported (workspace : Workspace) : Workspace where
  exportAll := true
  sources :=
    Keyed.mapValues (fun _ => LoadedSource.asExported) workspace.sources

variable {workspace : Workspace}

theorem isCurrent_asExported (workspace : Workspace) (id text : String) :
    workspace.asExported.isCurrent id text = workspace.isCurrent id text := by
  unfold isCurrent
  rw [asExported, Keyed.lookup_mapValues, Option.any_map]
  rfl

theorem put_asExported (workspace : Workspace) (id : String)
    (source : LoadedSource) :
    workspace.asExported.put id source.asExported =
      (workspace.put id source).asExported := by
  rw [put, asExported, put, asExported, ← Keyed.put_mapValues]

theorem read_asExported (hplain : workspace.exportAll = false)
    (id text : String) :
    workspace.asExported.read id text =
      (workspace.read id text).map fun source =>
        ⟨source.value.asExported, source.events⟩ := by
  unfold read
  rw [hplain]
  have hread := schemaOfSource_exportAll ⟨id, text⟩
  simp only [asExported, hread]
  cases schemaOfSource ⟨id, text⟩ false <;> rfl

def BatchResult.asExported (result : BatchResult) : BatchResult :=
  { result with workspace := result.workspace.asExported }

private theorem step_asExported (hplain : workspace.exportAll = false)
    (result : BatchResult) (source : String × String) :
    BatchResult.step workspace.asExported result.asExported source =
      (BatchResult.step workspace result source).asExported := by
  obtain ⟨held, outcome, events⟩ := result
  unfold BatchResult.step
  rw [read_asExported hplain]
  cases workspace.read source.1 source.2 with
  | ok loaded => simp only [Except.map, BatchResult.asExported, put_asExported]
  | error error => cases outcome <;> rfl

private theorem loadMany_asExported (hplain : workspace.exportAll = false)
    (sources : List (String × String)) :
    workspace.asExported.loadMany sources =
      (workspace.loadMany sources).asExported := by
  simp only [loadMany, isCurrent_asExported]
  rw [← List.foldl_hom BatchResult.asExported (step_asExported hplain)]
  rfl

private theorem perform_asExported (hplain : workspace.exportAll = false)
    (operation : Operation) :
    workspace.asExported.perform operation =
      ((workspace.perform operation).1,
        (workspace.perform operation).2.asExported) := by
  cases operation with
  | load id text =>
      simp only [perform, load, isCurrent_asExported, read_asExported hplain]
      by_cases hcurrent : workspace.isCurrent id text
      · simp only [hcurrent, if_true]
      · simp only [hcurrent, Bool.false_eq_true, if_false]
        cases workspace.read id text with
        | error error => rfl
        | ok source => simp only [Except.map, put_asExported]
  | loadMany sources =>
      simp only [perform, loadMany_asExported hplain]
      rfl
  | invalidate id =>
      simp only [perform, invalidate, asExported, Keyed.lookup_mapValues,
        Option.isSome_map, Keyed.erase_mapValues]

private theorem run_asExported (workspace : Workspace)
    (hplain : workspace.exportAll = false) (operations : List Operation) :
    workspace.asExported.run operations =
      ((workspace.run operations).1,
        (workspace.run operations).2.asExported) := by
  induction operations generalizing workspace with
  | nil => rfl
  | cons operation operations ih =>
      have hnext : (workspace.perform operation).2.exportAll = false := by
        rw [exportAll_perform, hplain]
      simp only [run, perform_asExported hplain, ih _ hnext]

private theorem mergeAll_asExported (id : String) (schema : Schema)
    (declarations : List Declaration) :
    mergeAll id schema.asExported (declarations.map Declaration.asExported) =
      (mergeAll id schema declarations).asExported := by
  induction declarations generalizing schema with
  | nil => rfl
  | cons declaration declarations ih =>
      simp only [List.map_cons, mergeAll, Schema.mergeFrom_asExported,
        Logged.asExported_bind, ← ih]
      rfl

private theorem mergeSources_asExported (schema : Schema)
    (sources : List (String × LoadedSource)) :
    mergeSources schema.asExported
      (Keyed.mapValues (fun _ => LoadedSource.asExported) sources) =
      (mergeSources schema sources).asExported := by
  induction sources generalizing schema with
  | nil => rfl
  | cons source sources ih =>
      obtain ⟨id, source⟩ := source
      simp only [mergeSources, Logged.asExported_bind, ← ih]
      change mergeAll
        id _ (source.declarations.map Declaration.asExported) >>= _ = _
      rw [mergeAll_asExported]
      rfl

private theorem schema_asExported (workspace : Workspace) :
    workspace.asExported.schema = workspace.schema.asExported :=
  mergeSources_asExported .empty workspace.sources

/-- A source read with and without exporting everything fails in the same way,
or gives schemas that are the same but for the marks.  So it is with the schemas
of two workspaces that differ in what they export, and their operations have the
same outcomes. -/
theorem exportsAll_of_source_and_run (source : Text.Source)
    (operations : List Operation) :
    (match declaredSchema source true, declaredSchema source false with
      | .ok all, .ok plain => all.ExportsAll plain
      | .error error, .error other => error = other
      | _, _ => False) ∧
    ((new true).run operations).1 = ((new false).run operations).1 ∧
    ((new true).run operations).2.schema.value.ExportsAll
      ((new false).run operations).2.schema.value := by
  have hrun : (new true).run operations =
      (((new false).run operations).1,
        ((new false).run operations).2.asExported) :=
    run_asExported (new false) rfl operations
  refine ⟨?_, ?_, ?_⟩
  · rw [declaredSchema, declaredSchema, schemaOfSource_exportAll]
    cases schemaOfSource source false with
    | error error => rfl
    | ok parsed =>
        simp only [Except.map, Schema.ofDeclarations_declarations]
        exact parsed.value.exportsAll_asExported
  · rw [hrun]
  · rw [hrun, schema_asExported]
    exact Schema.exportsAll_asExported _

end Workspace

end ShapeMend
