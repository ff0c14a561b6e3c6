import ShapeMend.Text.Source

/-!
# Paths of files

A path is a text of names with slashes between them.  Empty names and single
dots in it lead nowhere, but what comes before them has to be a directory.
-/

namespace ShapeMend.Files.Path

def names (path : String) : List String :=
  (Text.pieces '/' path.toList).map String.ofList

def isAbsolute (path : String) : Bool := path.toList.head? = some '/'

def isHere (path : String) : Bool :=
  path.toList.head? = some '.' && (names path).all fun name =>
    name = "" || name = "."

def child (path name : String) : String :=
  if path.isEmpty || path.toList.getLast? = some '/' then path ++ name
  else path ++ "/" ++ name

/-- The reverse of a path without the slashes, and the dots behind slashes, that
it starts with. -/
def trim : List Char → List Char
  | '/' :: c :: rest => trim (c :: rest)
  | '.' :: '/' :: rest => trim ('/' :: rest)
  | path => path

def parent? (path : String) : Option String :=
  match trim path.toList.reverse with
  | [] => none
  | ['/'] => none
  | trimmed => some (String.ofList (trim (trimmed.dropWhile (· ≠ '/'))).reverse)

/-- The paths around a path that are not empty, from the inside out.  The bound
is their number at most. -/
def around : Nat → String → List String
  | 0, _ => []
  | bound + 1, path =>
    match parent? path with
    | none => []
    | some parent =>
      if parent.isEmpty then [] else parent :: around bound parent

def hasExtension (extension name : String) : Bool :=
  let ending := '.' :: extension.toList
  let start := name.toList.length - ending.length
  0 < start && name.toList.drop start = ending

end ShapeMend.Files.Path
