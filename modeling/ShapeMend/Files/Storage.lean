import ShapeMend.Files.Path

/-!
# Storage

What a program needs of the place where files are kept: reading a file or a
directory, telling one from the other, writing a file and making a directory.
-/

namespace ShapeMend.Files

inductive FileError where
  | missing
  | exists
  | notDirectory
  | isDirectory
  /-- A file that holds no UTF-8 text. -/
  | notText
  | other (message : String)
  deriving DecidableEq

def FileError.message : FileError → String
  | missing => "No such file or directory (os error 2)"
  | «exists» => "File exists (os error 17)"
  | notDirectory => "Not a directory (os error 20)"
  | isDirectory => "Is a directory (os error 21)"
  | notText => "stream did not contain valid UTF-8"
  | other message => message

inductive EntryKind where
  | file
  | directory
  deriving DecidableEq

structure Storage (m : Type → Type) where
  read : String → m (Except FileError (List UInt8))
  /-- The names in a directory, in any order. -/
  entries : String → m (Except FileError (List String))
  kind? : String → m (Option EntryKind)
  write : String → String → m (Except FileError Unit)
  makeDirectory : String → m (Except FileError Unit)

namespace Storage

variable {m : Type → Type} [Monad m] (storage : Storage m)

def isDirectory (path : String) : m Bool :=
  return (← storage.kind? path) = some .directory

def readText (path : String) : m (Except FileError String) := do
  match ← storage.read path with
  | .error error => return .error error
  | .ok bytes =>
    match String.fromUTF8? (ByteArray.mk bytes.toArray) with
    | some text => return .ok text
    | none => return .error .notText

def settleDirectory (path : String) : m (Except FileError Unit) := do
  match ← storage.makeDirectory path with
  | .ok _ => return .ok ()
  | .error error =>
    if ← storage.isDirectory path then return .ok () else return .error error

/-- Makes the first directory, and where that has no place, the directories
around it before. -/
def makeAll : List String → m (Except FileError Unit)
  | [] => return .ok ()
  | path :: outer => do
    match ← storage.settleDirectory path with
    | .error .missing =>
      match ← makeAll outer with
      | .ok _ => storage.settleDirectory path
      | .error error => return .error error
    | result => return result

def makeDirectories (path : String) : m (Except FileError Unit) :=
  if path.isEmpty then return .ok ()
  else storage.makeAll (path :: Path.around path.length path)

end Storage

end ShapeMend.Files
