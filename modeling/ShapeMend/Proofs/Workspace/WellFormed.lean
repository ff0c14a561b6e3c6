import ShapeMend.Proofs.Schema.WellFormed
import ShapeMend.Proofs.Workspace.Held

/-!
# Workspaces hold well-formed declarations

Every operation keeps the declarations that a workspace holds well-formed,
whether it fails or not, so the schema of a workspace is well-formed whenever it
is asked for.
-/

namespace ShapeMend.Workspace

def WellFormed (workspace : Workspace) : Prop :=
  ∀ source ∈ workspace.sources, ∀ declaration ∈ source.2.declarations,
    declaration.WellFormed

variable {workspace : Workspace}

private theorem wellFormed_new (exportAll : Bool) :
    (new exportAll).WellFormed :=
  List.forall_mem_nil _

namespace WellFormed

private theorem run (h : workspace.WellFormed) (operations : List Operation) :
    (workspace.run operations).2.WellFormed := by
  let allWellFormed := fun declarations : List Declaration =>
    ∀ declaration ∈ declarations, declaration.WellFormed
  have hheld : workspace.Holds (allWellFormed ·.declarations) := h
  have hread : ReadsOnly (allWellFormed ·.declarations) workspace.exportAll :=
    readsOnly_of_parsed fun _ _ hparsed => forall_wellFormed_of_source hparsed
  exact hheld.run hread operations

private theorem schema (h : workspace.WellFormed) :
    workspace.schema.value.WellFormed := by
  rw [value_schema]
  apply Schema.wellFormed_ofDeclarations
  intro declaration hdeclaration
  obtain ⟨source, hsource, hmem⟩ := List.mem_flatMap.mp hdeclaration
  exact h source hsource declaration hmem

end WellFormed

/-- The schema of a workspace is well-formed after any operations, and so is
that of a single source. -/
theorem wellFormed_schema_run (exportAll : Bool) (operations : List Operation)
    (source : Text.Source) :
    ((new exportAll).run operations).2.schema.value.WellFormed ∧
      ∀ parsed, schemaOfSource source exportAll = .ok parsed →
        (Schema.ofDeclarations parsed.value.declarations).WellFormed :=
  ⟨((wellFormed_new exportAll).run operations).schema, fun _ hparsed =>
    Schema.wellFormed_ofDeclarations (forall_wellFormed_of_source hparsed)⟩

/-- A literal union, a type that nothing is left of, and an object inside a
list. -/
def roles : Text.Source :=
  ⟨"roles.ts",
    "type Role = ('admin' | 1)\ninterface User \x7b r: Role; s: void; t: \x7b u: () => 1; v \x7d[] \x7d"⟩

theorem wellFormed_schema_run_roles :
    ∃ parsed, schemaOfSource roles true = .ok parsed ∧
    (Schema.ofDeclarations parsed.value.declarations).WellFormed ∧
      ((new true).run reloads).2.schema.value.WellFormed := by
  have hok : (schemaOfSource roles true).isOk := by decide +kernel
  cases h : schemaOfSource roles true with
  | error error => simp [h, Except.isOk, Except.toBool] at hok
  | ok parsed =>
      have hboth := wellFormed_schema_run true reloads roles
      exact ⟨parsed, rfl, hboth.2 parsed h, hboth.1⟩

end ShapeMend.Workspace
