import ShapeMend.Files.Storage

/-!
# Wildcard patterns

A pattern is a path in which a question mark stands for one character, a star
for any number of them, a class in brackets for one of its members and two
stars, as a whole name, for any number of directories.  What a pattern finds is
listed in the order of the names, directory by directory.
-/

namespace ShapeMend.Files

inductive Wildcard.Part where
  | character (c : Char)
  | anyCharacter
  | anyText
  | anyDirectories
  | class (excluded : Bool) (ranges : List (Char × Char))
  deriving DecidableEq

inductive Wildcard.Flaw where
  | tooManyStars
  | mixedStars
  | openClass
  deriving DecidableEq

structure Wildcard.PatternError where
  /-- The number of characters before the flaw. -/
  position : Nat
  flaw : Wildcard.Flaw
  deriving DecidableEq

namespace Wildcard

def Flaw.message : Flaw → String
  | tooManyStars => "wildcards are either regular `*` or recursive `**`"
  | mixedStars => "recursive wildcards must form a single path component"
  | openClass => "invalid range pattern"

def PatternError.message (error : PatternError) : String :=
  "Pattern syntax error near position " ++ toString error.position ++ ": " ++
    error.flaw.message

/-- Whether a path is written as a pattern.  Braces mark one too, though they
stand for themselves. -/
def isPattern (path : String) : Bool :=
  path.toList.any fun c => c = '*' || c = '?' || c = '[' || c = '\x7b'

/-! ## Reading -/

def ranges : List Char → List (Char × Char)
  | first :: '-' :: last :: rest => (first, last) :: ranges rest
  | c :: rest => (c, c) :: ranges rest
  | [] => []

def classBody? (text : List Char) : Option (List Char) :=
  match text with
  | [] => none
  | first :: rest =>
    if ']' ∈ rest then some (first :: rest.takeWhile (· ≠ ']')) else none

/-- A class after its opening bracket, and the number of its characters through
the closing one. -/
def class? : List Char → Option (Part × Nat)
  | '!' :: rest =>
    (classBody? rest).map fun body =>
      (.class true (ranges body), body.length + 2)
  | text =>
    (classBody? text).map fun body =>
      (.class false (ranges body), body.length + 1)

/-- Two stars that start at a position, with the character before and the text
behind: whether they are a whole name, and then the number of characters with
the slash behind them. -/
def twoStars (position : Nat) (before : Option Char) (behind : List Char) :
    Except PatternError Nat :=
  if before.all (· = '/') then
    match behind with
    | [] => .ok 2
    | '/' :: _ => .ok 3
    | _ => .error ⟨position + 2, .mixedStars⟩
  else .error ⟨position - 1, .mixedStars⟩

def nextPart (position : Nat) (before : Option Char) :
    List Char → Except PatternError (Part × Nat)
  | '*' :: rest =>
    let stars := (rest.takeWhile (· = '*')).length + 1
    if stars = 1 then .ok (.anyText, 1)
    else if stars = 2 then
      (twoStars position before (rest.drop 1)).map (.anyDirectories, ·)
    else .error ⟨position + 2, .tooManyStars⟩
  | '?' :: _ => .ok (.anyCharacter, 1)
  | '[' :: rest =>
    match class? rest with
    | some (part, length) => .ok (part, length + 1)
    | none => .error ⟨position, .openClass⟩
  | c :: _ => .ok (.character c, 1)
  | [] => .ok (.anyText, 1)

def parts :
    Nat → Nat → Option Char → List Char → Except PatternError (List Part)
  | 0, _, _, _ => .ok []
  | _ + 1, _, _, [] => .ok []
  | bound + 1, position, before, c :: rest => do
    let (part, length) ← nextPart position before (c :: rest)
    let text := c :: rest
    let before := text[length - 1]?
    return part :: (← parts bound (position + length) before (text.drop length))

def partsOf (text : List Char) : Except PatternError (List Part) :=
  parts text.length 0 none text

inductive Segment where
  | name (name : String)
  | pattern (parts : List Part)
  | anyDirectories

def Segment.ofParts (parts : List Part) : Segment :=
  if .anyDirectories ∈ parts then .anyDirectories
  else
    let characters := parts.filterMap fun
      | .character c => some c
      | _ => none
    if characters.length = parts.length then .name (String.ofList characters)
    else .pattern parts

/-! ## Matching names -/

def Part.accepts (c : Char) : Part → Bool
  | character own => c = own
  | anyCharacter | anyText | anyDirectories => true
  | «class» excluded ranges =>
    let member := ranges.any fun range => range.1 ≤ c && c ≤ range.2
    member != excluded

def anyRest (test : List Char → Bool) : List Char → Bool
  | [] => test []
  | c :: rest => test (c :: rest) || anyRest test rest

def matchesText : List Part → List Char → Bool
  | [], text => text.isEmpty
  | .anyText :: parts, text => anyRest (matchesText parts) text
  | .anyDirectories :: parts, text => anyRest (matchesText parts) text
  | _ :: _, [] => false
  | part :: parts, c :: text => part.accepts c && matchesText parts text

def Segment.matches (name : String) : Segment → Bool
  | .name own => name = own
  | .pattern parts => matchesText parts name.toList
  | .anyDirectories => true

/-! ## Finding paths -/

structure Reached where
  path : String
  isDirectory : Bool

section

variable {m : Type → Type} [Monad m] (storage : Storage m)

def reach (path : String) : m Reached :=
  return ⟨path, ← storage.isDirectory path⟩

def entryPath (path name : String) : String :=
  if Path.isHere path then name else Path.child path name

def children (place : Reached) : m (List (String × Reached)) := do
  if !place.isDirectory then return []
  match ← storage.entries place.path with
  | .error _ => return []
  | .ok names =>
    (names.mergeSort fun a b => a ≤ b).mapM fun name => do
      return (name, ← reach storage (entryPath place.path name))

def named? (place : Reached) (name : String) : m (Option Reached) := do
  let next ← reach storage (entryPath place.path name)
  if name = "." || name = ".." then
    return if place.isDirectory then some next else none
  else if (← storage.kind? next.path).isSome then return some next
  else return none

/-- The directory itself and the one around it, where a pattern that starts with
a dot matches their names. -/
def dots (place : Reached) (parts : List Part) : m (List Reached) := do
  if place.isDirectory && parts.head? = some (.character '.') then
    ["..", "."].filter (matchesText parts ·.toList) |>.mapM fun name =>
      reach storage (Path.child place.path name)
  else return []

def isAnyDirectories : Segment → Bool
  | .anyDirectories => true
  | _ => false

/-- The paths that segments lead to from a place.  The bound is the number of
steps at most. -/
def find (needDirectory : Bool) : Nat → List Segment → Reached → m (List String)
  | 0, _, _ => return []
  | bound + 1, segments, place => do
    match segments with
    | [] =>
      return if needDirectory && !place.isDirectory then [] else [place.path]
    | .name name :: rest =>
      match ← named? storage place name with
      | some next => find needDirectory bound rest next
      | none => return []
    | .pattern parts :: rest =>
      let around ←
          (← dots storage place parts).mapM (find needDirectory bound rest)
      let inside ← (← children storage place).mapM fun (name, child) =>
        if matchesText parts name.toList then
          find needDirectory bound rest child
        else pure []
      return around.flatten ++ inside.flatten
    | .anyDirectories :: rest =>
      let rest := rest.dropWhile isAnyDirectories
      let found ← (← children storage place).mapM fun (name, child) => do
        let here ←
          match rest with
          | [] => pure (if child.isDirectory then [child.path] else [])
          | segment :: more =>
            if segment.matches name then find needDirectory bound more child
            else pure []
        let below ←
          if child.isDirectory then
            find needDirectory bound (.anyDirectories :: rest) child
          else pure []
        return here ++ below
      return found.flatten

end

def segmentTexts (pattern : List Char) : List (List Char) :=
  let texts := Text.pieces '/' pattern
  if texts.getLast? = some [] then texts.dropLast else texts

def depthLimit : Nat := 4096

def paths {m : Type → Type} [Monad m] (storage : Storage m) (pattern : String) :
    m (Except PatternError (List String)) := do
  let text := pattern.toList
  let start := if Path.isAbsolute pattern then "/" else "."
  let relative := if Path.isAbsolute pattern then text.drop 1 else text
  let segments := do
    discard (partsOf text)
    (segmentTexts relative).mapM fun segment =>
      return Segment.ofParts (← partsOf segment)
  match segments with
  | .error error => return .error error
  | .ok segments =>
    let needDirectory := text.getLast? = some '/'
    return .ok
      (← find storage needDirectory (depthLimit + segments.length) segments
      (← reach storage start))

end Wildcard

end ShapeMend.Files
