import KernelCensus.Command.Basic

/-!
# Arguments

The arguments of the program: options for every command, a command, and its own options. An option
starts with two dashes. Its value is the next argument, or stands behind an equals sign.
-/

namespace KernelCensus

/-- How often an option may be given, and whether it has a value. -/
inductive Arity
  /-- At most once, without a value. -/
  | flag
  /-- At most once, with a value. -/
  | single
  /-- Any number of times, with a value each. -/
  | many
deriving Repr, DecidableEq

/-- The names of the options that may be given, with their arities. -/
abbrev Options := List (Text × Arity)

/-- The options that are given, in order, with their values. A flag has the empty one. -/
abbrev Given := List (Text × Text)

/-- What is wrong with arguments. -/
inductive UsageError
  | noCommand
  | unknownCommand (name : Text)
  | unexpected (argument : Text)
  | missingValue (option : Text)
  | needlessValue (option : Text)
  | repeated (option : Text)
deriving Repr, DecidableEq

def UsageError.message : UsageError → Text
  | noCommand => "a command is needed"
  | unknownCommand name => Text.concat ["there is no command '", name, "'"]
  | unexpected argument => Text.concat ["unexpected argument '", argument, "'"]
  | missingValue option => Text.concat ["option '--", option, "' needs a value"]
  | needlessValue option => Text.concat ["option '--", option, "' has no value"]
  | repeated option => Text.concat ["option '--", option, "' is given twice"]

/-- Why no command is run. -/
inductive Stop
  | help
  | version
  | misuse (error : UsageError)
deriving Repr, DecidableEq

namespace Arguments

/-! ## Options -/

/-- The name of an option and the value behind its equals sign, if there is one. -/
def splitOption (text : Text) : Text × Option Text :=
  match Text.cut? ['='] text with
  | some (name, value) => (name, some value)
  | none => (text, none)

/-- Whether an argument is taken for an option where a value could stand. -/
def looksLikeOption (argument : Text) : Bool :=
  argument.head? == some '-' && argument != ['-']

/-- What an option that is not known asks for. Only `isTop` arguments may ask for the version. -/
def stopOf (isTop : Bool) (name : Text) (value : Option Text) : Stop :=
  if name = "help".toList then
    if value.isSome then .misuse (.needlessValue name) else .help
  else if isTop && name = "version".toList then
    if value.isSome then .misuse (.needlessValue name) else .version
  else .misuse (.unexpected ('-' :: '-' :: name))

/-- What letters after a single dash ask for. -/
def stopOfLetters (isTop : Bool) (letters : Text) : Stop :=
  match letters with
  | 'h' :: _ => .help
  | 'V' :: _ => if isTop then .version else .misuse (.unexpected ('-' :: letters))
  | _ => .misuse (.unexpected ('-' :: letters))

/-- The first value of an option, if it is given. -/
def value? (given : Given) (name : Text) : Option Text := given.lookup name

def isGiven (given : Given) (name : Text) : Bool := (value? given name).isSome

/-- Reads options up to the first argument that is none. The answer has the options and what is left
from that argument on. After two bare dashes no option follows. -/
def readOptions (isTop : Bool) (options : Options) (given : Given) :
    List Text → Except Stop (Given × List Text)
  | [] => .ok (given, [])
  | argument :: rest =>
    match argument with
    | ['-', '-'] =>
      match rest with
      | [] => .ok (given, [])
      | next :: _ => .error (.misuse (.unexpected next))
    | '-' :: '-' :: text =>
      let (name, value) := splitOption text
      match options.lookup name with
      | none => .error (stopOf isTop name value)
      | some .flag =>
        if value.isSome then .error (.misuse (.needlessValue name))
        else if isGiven given name then .error (.misuse (.repeated name))
        else readOptions isTop options (given ++ [(name, [])]) rest
      | some arity =>
        if arity = .single ∧ isGiven given name then .error (.misuse (.repeated name))
        else match value, rest with
          | some value, rest => readOptions isTop options (given ++ [(name, value)]) rest
          | none, next :: rest =>
            if looksLikeOption next then .error (.misuse (.missingValue name))
            else readOptions isTop options (given ++ [(name, next)]) rest
          | none, [] => .error (.misuse (.missingValue name))
    | '-' :: letter :: letters => .error (stopOfLetters isTop (letter :: letters))
    | _ => .ok (given, argument :: rest)

/-! ## Commands -/

/-- The commands. -/
inductive Verb
  | init
  | info
  | scan
  | report
deriving Repr, DecidableEq

def Verb.all : List Verb := [init, info, scan, report]

def Verb.name : Verb → Text
  | init => "init-project"
  | info => "project-info"
  | scan => "scan"
  | report => "report"

def Verb.ofName? (name : Text) : Option Verb := all.find? fun verb => verb.name = name

/-- The options of every command. -/
def commonOptions : Options := [("verbose", .flag)]

def Verb.options : Verb → Options
  | init => ("root", .single) :: ("name", .single) :: commonOptions
  | info => ("root", .single) :: ("json", .flag) :: commonOptions
  | scan => ("root", .single) :: ("source", .many) :: ("json", .flag) :: commonOptions
  | report =>
    ("root", .single) :: ("config", .single) :: ("source", .many) :: ("log", .many) ::
      ("json", .flag) :: commonOptions

def valuesOf (given : Given) (name : Text) : List Text :=
  (given.filter fun option => option.1 == name).map (·.2)

/-- The root that is given, or else the current directory. -/
def rootOf (given : Given) : Text := (value? given "root").getD ['.']

def Verb.command (given : Given) : Verb → Command
  | init => .init (rootOf given) (value? given "name")
  | info => .info (rootOf given) (isGiven given "json")
  | scan => .scan (rootOf given) (valuesOf given "source") (isGiven given "json")
  | report =>
    .report ⟨rootOf given, value? given "config", valuesOf given "source", valuesOf given "log",
      isGiven given "json"⟩

/-- What a request for help on a command comes to. -/
def stopOfHelp : List Text → Stop
  | [] => .help
  | [name] =>
    if name = "help".toList || (Verb.ofName? name).isSome then .help
    else .misuse (.unknownCommand name)
  | _ :: argument :: _ => .misuse (.unexpected argument)

def readCommand : List Text → Except Stop (Command × Given)
  | [] => .error (.misuse .noCommand)
  | name :: rest =>
    if name = "help".toList then .error (stopOfHelp rest)
    else match Verb.ofName? name with
      | none => .error (.misuse (.unknownCommand name))
      | some verb =>
        match readOptions false verb.options [] rest with
        | .error stop => .error stop
        | .ok (given, []) => .ok (verb.command given, given)
        | .ok (_, argument :: _) => .error (.misuse (.unexpected argument))

/-- Reads arguments. The answer has the command, and whether all notices are to be shown. -/
def read (arguments : List Text) : Except Stop (Command × Bool) :=
  match readOptions true commonOptions [] arguments with
  | .error stop => .error stop
  | .ok (given, rest) =>
    (readCommand rest).map fun (command, own) =>
      (command, isGiven given "verbose" || isGiven own "verbose")

end Arguments

end KernelCensus
