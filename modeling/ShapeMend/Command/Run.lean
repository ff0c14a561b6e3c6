import ShapeMend.Command.Arguments
import ShapeMend.Command.Host
import ShapeMend.Files.Wildcard
import ShapeMend.Json.Pointer
import ShapeMend.Mend.Basic
import ShapeMend.Module.Emit
import ShapeMend.Query.Reader
import ShapeMend.Schema.Descriptor.Read
import ShapeMend.Text.Quoting
import ShapeMend.Workspace

/-!
# Running commands

A command reads files, makes one text and prints it or writes it to a file.
-/

namespace ShapeMend.Command

open ShapeMend.Files

inductive Failure where
  | pattern (error : Wildcard.PatternError)
  | noMatch (pattern : String)
  | readSource (path : String) (error : FileError)
  | source (error : SourceError)
  | readDescriptor (path : String) (error : FileError)
  | descriptor (path : String) (error : LoadError)
  | unknownType (name : String) (declared : List String)
  | readValue (path : String) (error : FileError)
  | value (path : String) (error : Json.ReadError)
  | pointer (pointer : String)
  | query (path : String) (error : QueryError)
  | noResult (query : String)
  | makeDirectory (path : String) (error : FileError)
  | write (path : String) (error : FileError)

namespace Failure

def chain : Failure → List String
  | pattern error => ["failed to resolve input file paths", error.message]
  | noMatch given =>
    ["failed to resolve input file paths",
      "glob pattern matched no files: " ++ given]
  | readSource path error =>
    ["failed to read source file " ++ path, error.message]
  | source error => [error.report]
  | readDescriptor path error =>
    ["failed to read schema descriptor " ++ path, error.message]
  | descriptor path error =>
    let inner :=
      match error with
      | .json error => [error.report]
      | .nameMismatch _ _ => []
    ("failed to load schema descriptor " ++ path) :: error.message :: inner
  | unknownType name declared =>
    ["unknown type " ++ Text.ticked name ++ " (declared: " ++
      String.intercalate ", " declared ++ ")"]
  | readValue path error =>
    ["failed to read value file " ++ path, error.message]
  | value path error =>
    ["failed to parse JSON value (" ++ path ++ ")", error.report]
  | pointer text => ["JSON pointer " ++ Text.ticked text ++ " selects nothing"]
  | query path error =>
    ["failed to apply jq expression to " ++ path, error.message]
  | noResult text =>
    ["jq expression " ++ Text.ticked text ++ " produced no value"]
  | makeDirectory path error => ["failed to create " ++ path, error.message]
  | write path error => ["failed to write " ++ path, error.message]

def message (failure : Failure) : String :=
  String.intercalate ": " failure.chain

end Failure

section

variable {m : Type → Type} [Monad m] (host : Host m)

abbrev Step (m : Type → Type) (α : Type) := ExceptT Failure m α

def access {α : Type} (failure : FileError → Failure)
    (result : m (Except FileError α)) : Step m α :=
  ExceptT.mk do return (← result).mapError failure

def report {α : Type} (logged : Logged α) : Step m α := do
  for event in logged.events do host.note event
  return logged.value

def sourcePaths (given : List String) : Step m (List String) := do
  let found ← given.mapM fun path => do
    if Wildcard.isPattern path then
      match ← (Wildcard.paths host.storage path : m _) with
      | .error error => throw (.pattern error)
      | .ok [] => throw (.noMatch path)
      | .ok paths => return paths
    else return [path]
  return found.flatten

def loadWorkspace (given : List String) (exportAll : Bool) :
    Step m Workspace := do
  let paths ← sourcePaths host given
  let sources ← paths.mapM fun path => do
    return (path, ← access (.readSource path) (host.storage.readText path))
  let loaded := (Workspace.new exportAll).loadMany sources
  let workspace ← report host ⟨loaded.workspace, loaded.events⟩
  match loaded.outcome with
  | .ok _ => return workspace
  | .error error => throw (.source error)

def loadSources (sources : Sources) : Step m Schema := do
  let workspace ← loadWorkspace host sources.paths sources.exportAll
  report host workspace.schema

def loadSchema : SchemaOrigin → Step m Schema
  | .sources paths => loadSources host ⟨paths, false⟩
  | .descriptor path => do
    let text ← access (.readDescriptor path) (host.storage.readText path)
    match Schema.ofDescriptor text with
    | .ok loaded => return loaded
    | .error error => throw (.descriptor path error)

def readValue (path : String) : Step m Json := do
  let bytes ←
    if path = "-" then (host.input : m _)
    else access (.readValue path) (host.storage.read path)
  match Json.ofBytes bytes with
  | .ok value => return value
  | .error error => throw (.value path error)

inductive Selection where
  | one (value : Json)
  | several (values : List Json)

def select (options : MendOptions) (document : Json) :
    Except Failure Selection := do
  let part ←
    match options.pointer? with
    | none => pure document
    | some pointer =>
      match document.at? pointer with
      | some part => pure part
      | none => throw (.pointer pointer)
  match options.query? with
  | none => return .one part
  | some query =>
    match Query.ofText query >>= (·.answers part) with
    | .error error => throw (.query options.value error)
    | .ok [] => throw (.noResult query)
    | .ok [value] => return .one value
    | .ok values => return .several values

def Selection.mend (schema : Schema) (declaration : Declaration)
    (isArray : Bool) :
    Selection → Logged Json
  | one value => schema.mend declaration isArray value
  | several values =>
    do return .array (← values.mapM (schema.mend declaration isArray))

def mended (options : MendOptions) : Step m Json := do
  let loaded ← loadSchema host options.origin
  match loaded.find? options.type with
  | none => throw (.unknownType options.type loaded.names)
  | some declaration =>
    let document ← readValue host options.value
    let selection ← ExceptT.mk (pure (select options document))
    report host (selection.mend loaded declaration options.isArray)

/-- Prints a text as a line, or writes it to a file in a directory that is made
if it is missing.  Answers what is printed. -/
def deliver (out? : Option String) (text : String) : Step m String := do
  match out? with
  | none => return text ++ "\n"
  | some path =>
    match Files.Path.parent? path with
    | none => pure ()
    | some parent =>
      access (.makeDirectory parent) (host.storage.makeDirectories parent)
    access (.write path) (host.storage.write path text)
    return ""

def run : Command → Step m String
  | .schema sources out? => do
    let loaded ← loadSources host sources
    deliver host out? loaded.toJson.pretty
  | .emit sources out? => do
    let loaded ← loadSources host sources
    deliver host out?
      (← report host (loaded.emit sources.exportAll Module.defaultHeader))
  | .mend options => do deliver host options.out? (← mended host options).pretty

end

end ShapeMend.Command
