import ShapeMend.Keyed
import ShapeMend.Script.Declared
import ShapeMend.Text.Fingerprint

/-!
# Workspaces

A workspace keeps the declarations of sources by their ids, in the order in
which the ids were first loaded.  A source is read again only when the
fingerprint of its text has changed, and what cannot be read changes nothing.
-/

namespace ShapeMend

structure LoadedSource where
  fingerprint : UInt64
  declarations : List Declaration

structure Workspace where
  exportAll : Bool
  sources : List (String × LoadedSource)

namespace Workspace

def new (exportAll : Bool) : Workspace := ⟨exportAll, []⟩

def ids (workspace : Workspace) : List String := Keyed.keys workspace.sources

def isCurrent (workspace : Workspace) (id text : String) : Bool :=
  (Keyed.lookup id workspace.sources).any
    (·.fingerprint = Text.fingerprint text)

def read (workspace : Workspace) (id text : String) :
    Except SourceError (Logged LoadedSource) :=
  (schemaOfSource ⟨id, text⟩ workspace.exportAll).map fun schema =>
    ⟨⟨Text.fingerprint text, schema.value.declarations⟩, schema.events⟩

def put (workspace : Workspace) (id : String)
    (source : LoadedSource) : Workspace :=
  { workspace with sources := Keyed.put id source workspace.sources }

def load (workspace : Workspace) (id text : String) :
    Except SourceError (Logged (Bool × Workspace)) :=
  if workspace.isCurrent id text then
    .ok ⟨(false, workspace), [.sourceUnchanged id]⟩
  else
    (workspace.read id text).map fun source =>
      ⟨(true, workspace.put id source.value),
        source.events ++ [.sourceRead id source.value.declarations.length]⟩

/-- What came of loading several sources: the workspace, how many were read or
what first failed, and the events of reading them. -/
structure BatchResult where
  workspace : Workspace
  outcome : Except SourceError Nat
  events : List Event

def BatchResult.step (start : Workspace) (result : BatchResult)
    (source : String × String) : BatchResult :=
  match start.read source.1 source.2 with
  | .ok loaded =>
    ⟨result.workspace.put source.1 loaded.value, result.outcome.map (· + 1),
      result.events ++ loaded.events⟩
  | .error error =>
    match result.outcome with
    | .ok _ => { result with outcome := .error error }
    | .error _ => result

/-- Loads several sources at once.  Which of them have to be read is decided
before any is loaded, and a failure keeps none of the others from being loaded.
-/
def loadMany (workspace : Workspace)
    (sources : List (String × String)) : BatchResult :=
  (sources.filter fun source => !workspace.isCurrent source.1 source.2).foldl
    (BatchResult.step workspace) ⟨workspace, .ok 0, []⟩

def invalidate (workspace : Workspace) (id : String) : Bool × Workspace :=
  ((Keyed.lookup id workspace.sources).isSome,
    { workspace with sources := Keyed.erase id workspace.sources })

def mergeAll (source : String) : Schema → List Declaration → Logged Schema
  | schema, [] => pure schema
  | schema, declaration :: declarations => do
    let schema ← schema.mergeFrom source declaration
    mergeAll source schema declarations

def mergeSources : Schema → List (String × LoadedSource) → Logged Schema
  | schema, [] => pure schema
  | schema, (id, source) :: sources => do
    let schema ← mergeAll id schema source.declarations
    mergeSources schema sources

def schema (workspace : Workspace) : Logged Schema :=
  mergeSources .empty workspace.sources

def locate (workspace : Workspace) (name : String) : Option String :=
  (workspace.sources.find?
    fun source => source.2.declarations.any (·.name = name)).map (·.1)

end Workspace

end ShapeMend
