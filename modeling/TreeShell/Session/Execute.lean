import TreeShell.Session.Basic

/-!
# Running one command

* `Session.execute`: a name that is not enabled, or not built in, is answered as unknown.
* Paths in arguments are taken from the working directory; a missing argument is that directory.
* `cp` and `mv` read first, then write; `mv` deletes last.
-/

namespace TreeShell.Session

open Command (Builtin unknownCommand helpList)
open Store (Backend)

variable {σ : Type}

/-- Goes on with the value of an answer, or stops at its failure. -/
def andThen {α β : Type} (r : Reply (Session σ) α) (next : α → Session σ → Reply (Session σ) β) :
    Reply (Session σ) β :=
  match r with
  | (.error f, s) => (.error f, s)
  | (.ok a, s) => next a s

/-- A command that succeeds with some output. -/
def output (s : Session σ) (text : String) : Reply (Session σ) Outcome :=
  (.ok (.text text), s)

/-- `cd`: the session moves, whether or not the directory exists. -/
def changeDir (s : Session σ) (target : Option String) : Reply (Session σ) Outcome :=
  let cwd := WorkDir.move s.cwd target
  ({ s with cwd }.say ("Current directory: " ++ cwd)).output ""

/-- `grep`: keeps the lines that contain the pattern; without one, all. -/
def grep (s : Session σ) (pattern : Option String) (piped : String) : Reply (Session σ) Outcome :=
  if piped = "" then (s.warn "No input provided to grep").output ""
  else
    let lines := (piped.toList.splitOn '\n').map String.ofList
    s.output ("\n".intercalate (lines.filter (Text.hasInfix (pattern.getD ""))))

/-- `help`: one command, or the list of those enabled. -/
def help (s : Session σ) (name : Option String) : Reply (Session σ) Outcome :=
  match name with
  | none => s.output (helpList ((Builtin.all.map Builtin.name).filter s.isEnabled))
  | some name =>
    match Builtin.ofName? name with
    | some b => s.output (if s.isEnabled name then b.helpText else unknownCommand name)
    | none => s.output (unknownCommand name)

variable [Backend σ]

/-- A change of the store at one path, with the words that report it. -/
def change (s : Session σ) (path report : String)
    (request : String → σ → Except Store.Fault Unit × σ) : Reply (Session σ) Outcome :=
  andThen (s.ask (request path)) fun _ s => s.output (report ++ path)

/-- `cp`. -/
def copy (s : Session σ) (source target : String) : Reply (Session σ) Outcome :=
  andThen (s.ask (Backend.read source)) fun content s =>
  andThen (s.ask (Backend.write target content)) fun _ s =>
  s.output ("Copied from " ++ source ++ " to " ++ target)

/-- `mv`. -/
def rename (s : Session σ) (source target : String) : Reply (Session σ) Outcome :=
  andThen (s.ask (Backend.read source)) fun content s =>
  andThen (s.ask (Backend.write target content)) fun _ s =>
  andThen (s.ask (Backend.deleteFile source)) fun _ s =>
  s.output ("Moved from " ++ source ++ " to " ++ target)

/-- Runs a built-in command. -/
def runBuiltin (s : Session σ) (b : Builtin) (args : List String) (piped : String) :
    Reply (Session σ) Outcome :=
  let path := s.locate args[0]?
  match b with
  | .echo => s.output (" ".intercalate args)
  | .grep => s.grep args[0]? piped
  | .cat => andThen (s.ask (Backend.read path)) fun content s => s.output content
  | .ls => andThen (s.ask (Backend.list path)) fun names s => s.output ("\n".intercalate names)
  | .cd => s.changeDir args[0]?
  | .pwd => s.output s.cwd
  | .mkdir => s.change path "Directory created: " Backend.createDirectory
  | .rmdir => s.change path "Directory removed: " Backend.deleteDirectory
  | .rm => s.change path "File removed: " Backend.deleteFile
  | .touch => s.change path "File created: " (Backend.createFile · "")
  | .cp => s.copy path (s.locate args[1]?)
  | .mv => s.rename path (s.locate args[1]?)
  | .help => s.help args[0]?
  | .exit => (.ok .terminate, s.say "Exiting shell")
  | .clear => ({ s with terminal := s.terminal.clearScreen }).output ""

/-- Runs the command of that name, with the output of the command before it in the pipeline. -/
def execute (s : Session σ) (name : String) (args : List String) (piped : String) :
    Reply (Session σ) Outcome :=
  if s.isEnabled name then
    match Builtin.ofName? name with
    | some b => s.runBuiltin b args piped
    | none => s.output (unknownCommand name)
  else s.output (unknownCommand name)

end TreeShell.Session
