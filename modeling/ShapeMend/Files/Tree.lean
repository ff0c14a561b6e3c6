import ShapeMend.Files.Storage

/-!
# Trees of files

A tree is a working directory as a value.  A location in it is the list of names
that leads there from the working directory; nothing outside can be reached.
-/

namespace ShapeMend.Files

abbrev Location := List String

structure FileTree where
  files : List (Location × List UInt8)
  /-- The directories beside the working directory itself. -/
  directories : List Location

namespace FileTree

def empty : FileTree := ⟨[], []⟩

def kindAt? (tree : FileTree) (location : Location) : Option EntryKind :=
  if location = [] || location ∈ tree.directories then some .directory
  else if tree.files.any (·.1 = location) then some .file
  else none

def needDirectory (tree : FileTree) (location : Location) :
    Except FileError Unit :=
  match tree.kindAt? location with
  | some .directory => .ok ()
  | some .file => .error .notDirectory
  | none => .error .missing

def walk (tree : FileTree) : Location → List String → Except FileError Location
  | location, [] => .ok location
  | location, name :: names => do
    tree.needDirectory location
    if name = "" || name = "." then tree.walk location names
    else if name = ".." then
      if location = [] then .error .missing
      else tree.walk location.dropLast names
    else tree.walk (location ++ [name]) names

def locate (tree : FileTree) (path : String) : Except FileError Location :=
  if path.isEmpty || Path.isAbsolute path then .error .missing
  else tree.walk [] (Path.names path)

/-- The location of the directory that should hold the entry at a path, and the
name of the entry. -/
def place (tree : FileTree) (path : String) :
    Except FileError (Location × String) := do
  if path.isEmpty || Path.isAbsolute path then throw .missing
  let names := ((Path.names path).reverse.dropWhile (· = "")).reverse
  let location ← tree.walk [] names.dropLast
  tree.needDirectory location
  return (location, names.getLast?.getD "")

def isDots (name : String) : Bool := name = "." || name = ".."

def read (tree : FileTree) (path : String) : Except FileError (List UInt8) := do
  let location ← tree.locate path
  match tree.kindAt? location with
  | some .directory => throw .isDirectory
  | _ =>
    match tree.files.find? (·.1 = location) with
    | some (_, content) => return content
    | none => throw .missing

def nameIn? (directory location : Location) : Option String :=
  if location.dropLast = directory then location.getLast? else none

def entries (tree : FileTree) (path : String) :
    Except FileError (List String) := do
  let location ← tree.locate path
  tree.needDirectory location
  return (tree.files.map (·.1) ++ tree.directories).filterMap (nameIn? location)

def kind? (tree : FileTree) (path : String) : Option EntryKind :=
  match tree.locate path with
  | .ok location => tree.kindAt? location
  | .error _ => none

def put (tree : FileTree) (location : Location)
    (content : List UInt8) : FileTree :=
  { tree with
    files := tree.files.filter (·.1 ≠ location) ++ [(location, content)] }

def write (tree : FileTree) (path : String) (content : List UInt8) :
    Except FileError FileTree := do
  let (directory, name) ← tree.place path
  let location := directory ++ [name]
  if isDots name || path.toList.getLast? = some '/' || tree.kindAt? location =
    some .directory then
    throw .isDirectory
  return tree.put location content

def makeDirectory (tree : FileTree) (path : String) :
    Except FileError FileTree := do
  let (directory, name) ← tree.place path
  let location := directory ++ [name]
  if isDots name || (tree.kindAt? location).isSome then throw .exists
  return { tree with directories := tree.directories ++ [location] }

def update (change : FileTree → Except FileError FileTree) :
    StateM FileTree (Except FileError Unit) := do
  match change (← get) with
  | .ok tree =>
    set tree
    return .ok ()
  | .error error => return .error error

def storage : Storage (StateM FileTree) where
  read path := return (← get).read path
  entries path := return (← get).entries path
  kind? path := return (← get).kind? path
  write path text := update fun tree => tree.write path text.toUTF8.toList
  makeDirectory path := update fun tree => tree.makeDirectory path

def add (tree : FileTree) (path : String) (content : List UInt8) : FileTree :=
  let outer := (Path.parent? path).getD ""
  let tree := ((storage.makeDirectories outer).run tree).2
  match tree.write path content with
  | .ok tree => tree
  | .error _ => tree

def ofFiles (files : List (String × List UInt8)) : FileTree :=
  files.foldl (fun tree file => tree.add file.1 file.2) empty

end FileTree

end ShapeMend.Files
