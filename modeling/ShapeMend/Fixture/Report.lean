import ShapeMend.Files.Storage
import ShapeMend.Fixture.Directive
import ShapeMend.Script.Declared

/-!
# Reports on fixtures

A fixture is a file of declarations with directives in it.  All fixtures of a
directory are checked, in the order of their names, and reported on.
-/

namespace ShapeMend.Fixture

open ShapeMend.Text ShapeMend.Files

structure Outcome where
  line : Nat
  directive : Directive
  result : Except Mismatch Unit

inductive Failure where
  | read (path : String) (error : FileError)
  | source (error : SourceError)

def Failure.message : Failure → String
  | read path error =>
    "failed to read fixture " ++ path ++ ": " ++ error.message
  | source error => error.report

def outcomesFrom (schema : Schema) : Nat → List (List Char) → List Outcome
  | _, [] => []
  | number, line :: rest =>
    match Directive.ofLine? line with
    | some directive =>
      ⟨number, directive, directive.check schema⟩ ::
        outcomesFrom schema (number + 1) rest
    | none => outcomesFrom schema (number + 1) rest

def outcomesOf (source : Source) : Except SourceError (List Outcome) :=
  (schemaOfSource source false).map fun schema =>
    outcomesFrom schema.value 1 (lines source.chars)

structure FileReport where
  name : String
  result : Except Failure (List Outcome)

structure Report where
  directory : String
  files : Except FileError (List FileReport)

section

variable {m : Type → Type} [Monad m] (storage : Storage m)

def fileReport (directory name : String) : m FileReport := do
  let path := Path.child directory name
  match ← storage.readText path with
  | .error error => return ⟨name, .error (.read path error)⟩
  | .ok text => return ⟨name, (outcomesOf ⟨path, text⟩).mapError .source⟩

def report (directory : String) : m Report := do
  match ← storage.entries directory with
  | .error error => return ⟨directory, .error error⟩
  | .ok names =>
    let fixtures :=
      (names.filter (Path.hasExtension "ts")).mergeSort fun a b => a ≤ b
    return ⟨directory, .ok (← fixtures.mapM (fileReport storage directory))⟩

end

/-! ## Printing -/

def Outcome.passed (outcome : Outcome) : Bool := outcome.result.isOk

def Outcome.text (file : String) (outcome : Outcome) : List String :=
  let place :=
    file ++ ":" ++ toString outcome.line ++ " " ++ outcome.directive.label
  match outcome.result with
  | .ok _ => ["✓ " ++ place]
  | .error mismatch => ["✗ " ++ place, "      " ++ mismatch.message]

namespace FileReport

def outcomes (report : FileReport) : List Outcome :=
  match report.result with
  | .ok outcomes => outcomes
  | .error _ => []

def passed (report : FileReport) : Nat := report.outcomes.countP (·.passed)

def failed (report : FileReport) : Nat :=
  match report.result with
  | .ok outcomes => outcomes.countP (!·.passed)
  | .error _ => 1

def printed (report : FileReport) : List String :=
  report.outcomes.flatMap (·.text report.name)

def complaints (report : FileReport) : List String :=
  match report.result with
  | .ok _ => []
  | .error failure => ["✗ " ++ report.name ++ ": " ++ failure.message]

end FileReport

namespace Report

def passed (files : List FileReport) : Nat :=
  files.foldl (fun n file => n + file.passed) 0

def failed (files : List FileReport) : Nat :=
  files.foldl (fun n file => n + file.failed) 0

def succeeds (report : Report) : Bool :=
  match report.files with
  | .ok files => failed files = 0
  | .error _ => false

def printed (report : Report) : List String :=
  match report.files with
  | .error _ => []
  | .ok files =>
    files.flatMap (·.printed)
      ++ if failed files = 0 then [toString (passed files) ++ " passed"] else []

/-- What is printed about what could not be checked, and in the end, if not all
holds, how much that is. -/
def complaints (report : Report) : List String :=
  match report.files with
  | .error error =>
    ["error: failed to read fixture directory " ++ report.directory ++ ": " ++
      error.message]
  | .ok files =>
    files.flatMap (·.complaints)
      ++ if failed files = 0 then []
        else
          [toString (passed files) ++ " passed, " ++ toString (failed files) ++
            " failed"]

end Report

end ShapeMend.Fixture
