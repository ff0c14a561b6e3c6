import ShapeMend.Command.Run

/-!
# The command line program

Files, the input and the streams of the operating system as a host, and the exit
codes: 1 for a command that fails, 2 for one that is misused.
-/

namespace ShapeMend

open ShapeMend.Files

def errorNumber (code : UInt32) : UInt32 :=
  if code < 2147483648 then code else -code

def Files.FileError.ofSystem : IO.Error → FileError
  | .noFileOrDirectory .. => .missing
  | .alreadyExists .. => .exists
  | .permissionDenied .. => .other "Permission denied (os error 13)"
  | .inappropriateType _ code details =>
    if errorNumber code = 20 then .notDirectory
    else if errorNumber code = 21 then .isDirectory
    else .other details
  | error => .other (toString error)

def attempt {α : Type} (action : IO α) : IO (Except FileError α) := do
  try
    return .ok (← action)
  catch error =>
    return .error (.ofSystem error)

def systemKind? (path : String) : IO (Option EntryKind) := do
  match ← attempt (System.mkFilePath [path]).metadata with
  | .error _ => return none
  | .ok found => return some (if found.type == .dir then .directory else .file)

def systemStorage : Storage IO where
  read path := attempt do return (← IO.FS.readBinFile path).toList
  entries path := attempt do
    return (← (System.mkFilePath [path]).readDir).toList.map (·.fileName)
  kind? := systemKind?
  write path text := attempt (IO.FS.writeFile path text)
  makeDirectory path := attempt (IO.FS.createDir path)

partial def readAll (stream : IO.FS.Stream) (read : ByteArray) :
  IO ByteArray := do
  let chunk ← stream.read 65536
  if chunk.isEmpty then return read else readAll stream (read ++ chunk)

def Event.line (event : Event) : String :=
  let level :=
    match event.level with
    | .warning => "warning: "
    | .detail => "debug: "
  let place :=
    match event.source?, event.line? with
    | some source, some line => source ++ ":" ++ toString line ++ ": "
    | some source, none => source ++ ": "
    | none, _ => ""
  level ++ place ++ event.message

def systemHost (verbose : Bool) : Host IO where
  storage := systemStorage
  input := do return (← readAll (← IO.getStdin) .empty).toList
  note event := do
    if verbose || event.level = .warning then IO.eprintln event.line

def usage : String :=
  "Usage:\n"
    ++ "  schema -i FILE... [--export-all] [-o FILE]\n"
    ++ "  emit -i FILE... [--export-all] [-o FILE]\n"
    ++ "  guard (-i FILE... or --schema FILE) -t TYPE --value FILE [--array]\n"
    ++ "        [--json-pointer POINTER] [--jq-expr QUERY] [-o FILE]\n"
    ++ "-v reports details"

end ShapeMend

open ShapeMend

def main (arguments : List String) : IO UInt32 := do
  match Invocation.ofArguments arguments with
  | .error .helpWanted =>
    IO.println usage
    return 0
  | .error .versionWanted =>
    IO.println "shape-guard 0.1.0"
    return 0
  | .error error =>
    IO.eprintln ("error: " ++ error.message)
    IO.eprintln usage
    return 2
  | .ok invocation =>
    let host := systemHost invocation.verbose
    match ← (Command.run host invocation.command).run with
    | .error failure =>
      IO.eprintln ("error: " ++ failure.message)
      return 1
    | .ok printed =>
      IO.print printed
      return 0
