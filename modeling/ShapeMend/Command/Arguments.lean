import ShapeMend.Command.Options

/-!
# Commands and their arguments

A command line names one command; `-v` may stand before the command or among its
options.
-/

namespace ShapeMend

structure Command.Sources where
  /-- Paths and patterns. -/
  paths : List String
  exportAll : Bool

inductive Command.SchemaOrigin where
  | sources (paths : List String)
  | descriptor (path : String)

structure Command.MendOptions where
  origin : Command.SchemaOrigin
  type : String
  isArray : Bool
  /-- The file that holds the value; a dash stands for the input. -/
  value : String
  pointer? : Option String
  query? : Option String
  out? : Option String

inductive Command where
  | schema (sources : Command.Sources) (out? : Option String)
  | emit (sources : Command.Sources) (out? : Option String)
  | mend (options : Command.MendOptions)

structure Invocation where
  verbose : Bool
  command : Command

namespace Command

def verboseRule : OptionRule := ⟨.verbose, "verbose", some 'v', .none, false⟩

def helpRule : OptionRule := ⟨.help, "help", some 'h', .none, false⟩

def versionRule : OptionRule := ⟨.version, "version", some 'V', .none, false⟩

def inputRule : OptionRule := ⟨.input, "input", some 'i', .many, false⟩

def outRule : OptionRule := ⟨.out, "out", some 'o', .one, true⟩

def outerRules : List OptionRule := [verboseRule, helpRule, versionRule]

def sourceRules : List OptionRule :=
  [verboseRule, helpRule, inputRule,
    ⟨.exportAll, "export-all", none, .none, false⟩, outRule]

def mendRules : List OptionRule :=
  [verboseRule, helpRule, inputRule, ⟨.schema, "schema", none, .one, true⟩,
    ⟨.type, "type", some 't', .one, false⟩,
      ⟨.array, "array", none, .none, false⟩,
    ⟨.value, "value", none, .one, false⟩,
      ⟨.pointer, "json-pointer", none, .one, false⟩,
    ⟨.query, "jq-expr", none, .one, false⟩, outRule]

def sourcesOf (given : Given) : Except UsageError Sources :=
  if given.has .input then .ok ⟨given.values .input, given.has .exportAll⟩
  else .error (.missingRequired "input")

def required (given : Given) (key : OptionKey) (name : String) :
    Except UsageError String :=
  match given.value? key with
  | some value => .ok value
  | none => .error (.missingRequired name)

def originOf (given : Given) : Except UsageError SchemaOrigin :=
  match given.has .input, given.value? .schema with
  | true, some _ => .error (.conflict "schema")
  | true, none => .ok (.sources (given.values .input))
  | false, some path => .ok (.descriptor path)
  | false, none => .error (.missingRequired "input")

def mendOptionsOf (given : Given) : Except UsageError MendOptions := do
  return { origin := ← originOf given
           type := ← required given .type "type"
           isArray := given.has .array
           value := ← required given .value "value"
           pointer? := given.value? .pointer
           query? := given.value? .query
           out? := given.value? .out }

inductive Name where
  | schema
  | emit
  | guard
  deriving DecidableEq

def Name.ofText? : String → Option Name
  | "schema" => some .schema
  | "emit" => some .emit
  | "guard" => some .guard
  | _ => none

def Name.rules : Name → List OptionRule
  | schema | emit => sourceRules
  | guard => mendRules

def Name.command (given : Given) : Name → Except UsageError Command
  | schema => return .schema (← sourcesOf given) (given.value? .out)
  | emit => return .emit (← sourcesOf given) (given.value? .out)
  | guard => return .mend (← mendOptionsOf given)

def isCommandWord (word : String) : Bool :=
  word = "help" || (Name.ofText? word).isSome

/-- What the help command answers to the words after it: there is help for every
command, and nothing below. -/
def helpFor : List String → UsageError
  | [] => .helpWanted
  | word :: rest =>
    if isCommandWord word then
      match rest with
      | [] => .helpWanted
      | next :: _ => .unknownCommand next
    else .unknownCommand word

end Command

namespace Invocation

open Command

def unfinished (outer : Given) : UsageError :=
  if outer.closed.isEmpty then .nothingGiven else .missingCommand

def ofArgumentsAfter (outer : Given) :
    List String → Except UsageError Invocation
  | [] => .error (unfinished outer)
  | argument :: rest => do
    match Name.ofText? argument with
    | some name =>
      let given ← Given.start.takeAll name.rules rest
      let command ← name.command given
      return ⟨outer.has .verbose || given.has .verbose, command⟩
    | none =>
      if argument = "help" then throw (helpFor rest)
      match Given.formOf argument with
      | .divider =>
        match rest with
        | [] => throw (unfinished outer)
        | next :: _ =>
          throw (if isCommandWord next then
            .unknownArgument next else .unknownCommand next)
      | .long text => ofArgumentsAfter (← outer.long outerRules text) rest
      | .letters text => ofArgumentsAfter (← outer.letters outerRules text) rest
      | .plain => throw (.unknownCommand argument)

def ofArguments (arguments : List String) : Except UsageError Invocation :=
  ofArgumentsAfter .start arguments

end Invocation

end ShapeMend
