import TreeShell.Text.Wrap

/-!
# Arguments

What the command line asks for.

* `Options`: the options of a run. Each may be given once.
* `parse`: the request in a list of arguments. Help and version are answered as soon as they are met.
* `helpText`: the description of the options.
-/

namespace TreeShell.Cli

/-- The options of a run. -/
structure Options where
  /-- The line to run instead of a session. -/
  command : Option String
  /-- The file of the settings. -/
  config : Option String
  /-- The file of the snapshot. -/
  snapshot : Option String
  /-- Whether the tree is kept in memory only. -/
  ephemeral : Bool
deriving DecidableEq, Repr

/-- No option is given. -/
def Options.none : Options :=
  ⟨.none, .none, .none, false⟩

/-- An option that has a value. -/
inductive Named
  | command
  | config
  | snapshot
deriving DecidableEq, Repr

/-- The long name of an option. -/
def Named.name : Named → String
  | command => "command"
  | config => "config"
  | snapshot => "snapshot"

/-- The option of that name. -/
def Named.ofName? (name : List Char) : Option Named :=
  [command, config, snapshot].find? (·.name.toList = name)

/-- What is asked for. -/
inductive Request
  | run (options : Options)
  | help
  | version
deriving DecidableEq, Repr

/-- Why the arguments make no sense. -/
inductive Misuse
  | unexpected (argument : String)
  | missingValue (option : String)
  | unwantedValue (option : String)
  | repeated (option : String)
  /-- A snapshot is named and at the same time unwanted. -/
  | conflict
deriving DecidableEq, Repr

/-- The wording of a misuse. -/
def Misuse.message : Misuse → String
  | unexpected a => "unexpected argument '" ++ a ++ "'"
  | missingValue o => "a value is required for '--" ++ o ++ "'"
  | unwantedValue o => "'--" ++ o ++ "' takes no value"
  | repeated o => "'--" ++ o ++ "' cannot be used more than once"
  | conflict => "'--ephemeral' cannot be used with '--snapshot'"

/-- The options with one more. -/
def Options.give (o : Options) (option : Named) (value : String) : Except Misuse Options :=
  match option, o with
  | .command, ⟨.none, config, snapshot, e⟩ => .ok ⟨some value, config, snapshot, e⟩
  | .config, ⟨command, .none, snapshot, e⟩ => .ok ⟨command, some value, snapshot, e⟩
  | .snapshot, ⟨command, config, .none, e⟩ => .ok ⟨command, config, some value, e⟩
  | option, _ => .error (.repeated option.name)

/-- The options with the tree kept in memory only. -/
def Options.keepInMemory (o : Options) : Except Misuse Options :=
  if o.ephemeral then .error (.repeated "ephemeral") else .ok { o with ephemeral := true }

/-- The request with these options, if they go together. -/
def Options.request (o : Options) : Except Misuse Request :=
  if o.ephemeral && o.snapshot.isSome then .error .conflict else .ok (.run o)

/-- What one argument says. -/
inductive Argument
  | help
  | version
  | ephemeral
  /-- An option with its value. -/
  | given (option : Named) (value : String)
  /-- An option whose value is the next argument. -/
  | awaits (option : Named)
  /-- Only operands follow. -/
  | operands
  | misused (misuse : Misuse)
deriving DecidableEq, Repr

/-- What stands before the first equals sign, and what behind it. -/
def splitEquals (s : List Char) : List Char × Option String :=
  match s.dropWhile (· ≠ '=') with
  | [] => (s, none)
  | _ :: value => (s.takeWhile (· ≠ '='), some (String.ofList value))

/-- An argument that begins with two hyphens, given what follows them. -/
def Argument.ofLong (s : List Char) : Argument :=
  match splitEquals s with
  | ([], none) => operands
  | (name, value) =>
    match Named.ofName? name, value with
    | some option, some value => given option value
    | some option, none => awaits option
    | none, value =>
      let flag :=
        if name = "help".toList then some help
        else if name = "version".toList then some version
        else if name = "ephemeral".toList then some ephemeral
        else none
      match flag, value with
      | some flag, none => flag
      | some _, some _ => misused (.unwantedValue (String.ofList name))
      | none, _ => misused (.unexpected (String.ofList ('-' :: '-' :: s)))

/-- An argument that begins with one hyphen, given what follows it. -/
def Argument.ofShort (s : List Char) : Argument :=
  match s with
  | 'h' :: _ => help
  | 'V' :: _ => version
  | ['c'] => awaits .command
  | 'c' :: '=' :: value => given .command (String.ofList value)
  | 'c' :: value => given .command (String.ofList value)
  | s => misused (.unexpected (String.ofList ('-' :: s)))

/-- What an argument says. There are no operands. -/
def Argument.of (argument : String) : Argument :=
  match argument.toList with
  | '-' :: '-' :: s => ofLong s
  | ['-'] => misused (.unexpected argument)
  | '-' :: s => ofShort s
  | _ => misused (.unexpected argument)

/-- Whether an argument can be the value of the option before it. -/
def isValue (argument : String) : Bool :=
  argument = "-" || argument.toList.head? ≠ some '-'

/-- The request in some arguments, given the options before them. -/
def parseFrom (o : Options) : List String → Except Misuse Request
  | [] => o.request
  | argument :: rest =>
    match Argument.of argument, rest with
    | .help, _ => .ok .help
    | .version, _ => .ok .version
    | .ephemeral, rest => do parseFrom (← o.keepInMemory) rest
    | .given option value, rest => do parseFrom (← o.give option value) rest
    | .awaits option, [] => .error (.missingValue option.name)
    | .awaits option, value :: rest =>
      if isValue value then do parseFrom (← o.give option value) rest
      else .error (.missingValue option.name)
    | .operands, [] => o.request
    | .operands, operand :: _ => .error (.unexpected operand)
    | .misused m, _ => .error m

/-- The request in the arguments of a run. -/
def parse (arguments : List String) : Except Misuse Request :=
  parseFrom .none arguments

/-- The name of the program. -/
def programName : String := "vsh"

/-- The version of the program. -/
def programVersion : String := "0.1.0"

/-- What an option does, set to the right of its name in lines of 100 characters. -/
def description (text : String) : String :=
  Text.wrap 71 29 text

/-- The description of the options, given the file that the environment names. -/
def helpText (config : String) : String :=
  programName ++ " - self-installing shell for the vos virtual filesystem\n\n" ++
    "Usage: " ++ programName ++ " [OPTIONS]\n\n" ++
    "Options:\n" ++
    "  -c, --command <COMMAND>    Run one command line through the installed shell and exit\n" ++
    "      --config <CONFIG>      " ++
    description ("Configuration file [env: VOS_CONFIG=" ++ config ++ "]") ++ "\n" ++
    "      --snapshot <SNAPSHOT>  File the virtual filesystem is loaded from and saved to\n" ++
    "      --ephemeral            Keep the virtual filesystem in memory only\n" ++
    "  -h, --help                 Print help\n" ++
    "  -V, --version              Print version\n"

end TreeShell.Cli
