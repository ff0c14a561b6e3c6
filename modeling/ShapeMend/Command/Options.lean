import ShapeMend.Text.Quoting

/-!
# Options of a command line

An option is written with two dashes and its name, or with one dash and its
letter.  Values follow it in the next arguments, up to the next option, or stand
right behind it.  Arguments after two dashes alone are never options.
-/

namespace ShapeMend.Command

inductive OptionKey where
  | verbose
  | help
  | version
  | input
  | exportAll
  | out
  | schema
  | type
  | array
  | value
  | pointer
  | query
  deriving DecidableEq

inductive Arity where
  | none
  | one
  | many
  deriving DecidableEq

structure OptionRule where
  key : OptionKey
  name : String
  letter? : Option Char
  arity : Arity
  /-- Whether the empty text is no value for it. -/
  refusesEmpty : Bool

inductive UsageError where
  | helpWanted
  | versionWanted
  | nothingGiven
  | missingCommand
  | unknownCommand (name : String)
  | unknownArgument (argument : String)
  | conflict (name : String)
  | invalidValue (name : String)
  | tooManyValues (name : String)
  | missingRequired (name : String)

def UsageError.message : UsageError → String
  | helpWanted => "help"
  | versionWanted => "version"
  | nothingGiven | missingCommand => "a command is required"
  | unknownCommand name => "unrecognized command " ++ Text.ticked name
  | unknownArgument argument => "unexpected argument " ++ Text.ticked argument
  | conflict name =>
    Text.ticked name ++ " cannot be used here again or with what else is given"
  | invalidValue name => Text.ticked name ++ " needs a value"
  | tooManyValues name => Text.ticked name ++ " takes no value"
  | missingRequired name => Text.ticked name ++ " is required"

structure OpenOption where
  rule : OptionRule
  values : List String
  /-- Whether the next argument may be a value. -/
  takesMore : Bool

structure Given where
  closed : List (OptionKey × List String)
  open? : Option OpenOption

namespace Given

def start : Given := ⟨[], none⟩

def has (given : Given) (key : OptionKey) : Bool := given.closed.any (·.1 = key)

def values (given : Given) (key : OptionKey) : List String :=
  (given.closed.filter (·.1 = key)).flatMap (·.2)

def value? (given : Given) (key : OptionKey) : Option String :=
  (given.values key).head?

def record (given : Given) (rule : OptionRule) (values : List String) :
    Except UsageError Given :=
  if rule.arity ≠ .none && values.isEmpty then .error (.invalidValue rule.name)
  else if rule.arity ≠
    .many && given.has rule.key then .error (.conflict rule.name)
  else if rule.refusesEmpty &&
    values.any (·.isEmpty) then .error (.invalidValue rule.name)
  else .ok { given with closed := given.closed ++ [(rule.key, values)] }

def close (given : Given) : Except UsageError Given :=
  match given.open? with
  | none => .ok given
  | some current =>
    { given with open? := none }.record current.rule current.values

def collect (given : Given) (rule : OptionRule) : Except UsageError Given := do
  return { (← given.close) with open? := some ⟨rule, [], true⟩ }

def complete (given : Given) (rule : OptionRule) (values : List String) :
    Except UsageError Given := do
  let given ← given.close
  match rule.key with
  | .help => throw .helpWanted
  | .version => throw .versionWanted
  | _ => given.record rule values

/-! ## Arguments -/

def long (rules : List OptionRule) (given : Given) (text : List Char) :
    Except UsageError Given :=
  let name := String.ofList (text.takeWhile (· ≠ '='))
  let attached :=
    match text.dropWhile (· ≠ '=') with
    | [] => none
    | _ :: value => some (String.ofList value)
  match rules.find? (·.name = name), attached with
  | none, _ => .error (.unknownArgument ("--" ++ String.ofList text))
  | some rule, none =>
    if rule.arity = .none then given.complete rule [] else given.collect rule
  | some rule, some value =>
    if rule.arity = .none then .error (.tooManyValues name)
    else given.complete rule [value]

/-- Options by their letters.  What stands behind the letter of one that takes
values is its value. -/
def letters (rules : List OptionRule) (given : Given) :
    List Char → Except UsageError Given
  | [] => .ok given
  | c :: rest =>
    match rules.find? (·.letter? = some c) with
    | none => .error (.unknownArgument ("-" ++ String.singleton c))
    | some rule =>
      if rule.arity = .none then do
        let given ← given.complete rule []
        letters rules given rest
      else
        match rest with
        | [] => given.collect rule
        | '=' :: value => given.complete rule [String.ofList value]
        | value => given.complete rule [String.ofList value]

def plain (given : Given) (argument : String) : Except UsageError Given :=
  match given.open? with
  | some ⟨rule, values, true⟩ =>
    .ok { given with
      open? := some ⟨rule, values ++ [argument], rule.arity = .many⟩ }
  | _ => .error (.unknownArgument argument)

inductive Form where
  | divider
  | long (text : List Char)
  | letters (text : List Char)
  | plain

def formOf (argument : String) : Form :=
  match argument.toList with
  | ['-', '-'] => .divider
  | '-' :: '-' :: text => .long text
  | '-' :: c :: text => .letters (c :: text)
  | _ => .plain

def takeAll (rules : List OptionRule) (given : Given) :
    List String → Except UsageError Given
  | [] => given.close
  | argument :: rest => do
    match formOf argument with
    | .divider =>
      match rest with
      | [] => given.close
      | next :: _ => throw (.unknownArgument next)
    | .long text => takeAll rules (← given.long rules text) rest
    | .letters text => takeAll rules (← given.letters rules text) rest
    | .plain => takeAll rules (← given.plain argument) rest

end Given

end ShapeMend.Command
