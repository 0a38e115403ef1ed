import TreeShell.Cli.Arguments
import TreeShell.Cli.History
import TreeShell.Host.Expand
import TreeShell.Settings.Load
import TreeShell.Snapshot.Json
import TreeShell.Text.Cluster

/-!
# One run of the program

* `runLine` starts a session and runs one line in it; `runSession` runs a session on given lines.
* `loadTree` and `saveTree` keep the tree in a file of the host between runs.
* `run`: a whole run, from arguments, environment and standard input.

A snapshot that cannot be restored ends the run before anything is done.
-/

namespace TreeShell.Cli

open Store (Tree)

/-- What a run leaves to see. -/
structure Exit where
  code : Nat
  out : String
  err : String
deriving DecidableEq, Repr

/-! ## Sessions -/

/-- How sessions are started under the given settings. -/
def bootOf (s : Settings) : Boot :=
  { corePath := s.boot.corePath, prompt := s.shell.prompt }

/-- Starts a session and runs one line in it. Of the start only the errors are shown. -/
def runLine (s : Settings) (line : String) (tree : Tree) : Exit × Tree :=
  match (bootOf s).start { store := tree, terminal := .ofInput [] } with
  | (none, m) => ({ code := 1, out := "", err := Text.unlines m.terminal.errors }, m.store)
  | (some session, _) =>
    let errors := session.terminal.errors
    let (status, session) := { session with terminal := session.terminal.forget }.processLine line
    let failure :=
      match status with
      | .ok _ => []
      | .error f => [programName ++ ": " ++ f.message]
    let complaints := session.terminal.errors ++ failure
    ({ code := if complaints = [] then 0 else 1
       out := Text.unlines session.terminal.lines
       err := Text.unlines (errors ++ complaints) }, session.store)

/-- The terminals on which a line cannot be edited. -/
def plainTerminals : List String := ["dumb", "cons25", "emacs"]

/-- Whether prompts are shown: only where a line cannot be edited. Elsewhere the editor shows them,
and there is none for lines that nobody types. -/
def showsPrompts (env : Environment) : Bool :=
  (env.get? "TERM").any fun name => plainTerminals.contains (name.map Char.toLower)

/-- What an event shows on the info channel. -/
def shown (prompts : Bool) : Event → String
  | .line text => text ++ "\n"
  | .prompt text => if prompts then text else ""
  | _ => ""

/-- A session on the given lines; also gives the lines that were read. -/
def runSession (prompts : Bool) (s : Settings) (lines : List String) (tree : Tree) :
    (Exit × List String) × Tree :=
  let m := (bootOf s).boot { store := tree, terminal := .ofInput lines }
  (({ code := 0
      out := String.join (m.terminal.events.map (shown prompts))
      err := Text.unlines m.terminal.errors },
    lines.take (lines.length - m.terminal.input.length)), m.store)

/-! ## Files of the host -/

variable {m : Type → Type} [Monad m] [Host m]

/-- The tree in a snapshot, given its text. -/
def treeOf (text : String) : Except Store.Fault Tree := do
  (← Snapshot.ofJson text).restore

/-- The tree kept in a file, or the empty one if there is no such file. -/
def loadTree : Option String → m (Except Store.Fault Tree)
  | none => return .ok .empty
  | some path => do
    match ← Host.readText path with
    | .ok text => return treeOf text
    | .error .noEntry => return .ok .empty
    | .error e =>
      return .error (.internal ("failed to read snapshot " ++ path ++ ": " ++ e.message))

/-- Keeps a tree in a file, in directories that are made if they are missing. -/
def saveTree (tree : Tree) : Option String → m (Except Store.Fault Unit)
  | none => return .ok ()
  | some path => do
    let directory := (Host.parent? path).getD ""
    let made ← if directory = "" then pure (.ok ()) else Host.makeDirectories directory
    match made with
    | .error e => return .error (.internal ("failed to create " ++ directory ++ ": " ++ e.message))
    | .ok () =>
      match ← Host.writeText path (Snapshot.ofTree tree).toJson with
      | .ok () => return .ok ()
      | .error e =>
        return .error (.internal ("failed to write snapshot " ++ path ++ ": " ++ e.message))

/-- The history kept in a file, or an empty one if the file cannot be read. -/
def loadHistory (limit : Nat) (path : String) : m History := do
  match ← Host.readText path with
  | .ok text => return .ofText limit text
  | .error _ => return .blank limit

/-- Keeps a history in a file if it has grown. That it cannot be kept is not reported. -/
def saveHistory (h : History) (path : String) : m Unit := do
  let made ←
    match Host.parent? path with
    | none => pure (.ok ())
    | some directory => Host.makeDirectories directory
  if made.toBool && h.grown then
    let _ ← Host.writeText path h.toText

/-- The file that keeps the history, if one does. -/
def historyPath? (env : Environment) (s : Settings) : Option String :=
  if s.shell.history.enabled then some (Host.expand env s.shell.history.file) else none

/-- The history with the lines of a session, leaving out the blank ones. -/
def historyAfter (h : History) (read : List String) : History :=
  (read.filter (! Text.allBlank ·)).foldl .add h

/-- A session on the lines of standard input, which go into the history. In each a backspace takes
back what stands before it. -/
def runInput (env : Environment) (s : Settings) (input : String) (tree : Tree) :
    m (Exit × Tree) := do
  let lines := (Text.lines input).map Text.takeBack
  let ((exit, read), tree) := runSession (showsPrompts env) s lines tree
  match historyPath? env s with
  | none => return (exit, tree)
  | some path =>
    let kept ← loadHistory s.shell.history.maxEntries path
    saveHistory (historyAfter kept read) path
    return (exit, tree)

/-! ## The run -/

/-- The file that keeps the tree, if one does: the one named by an option, else the one that is
set. -/
def snapshotPath? (env : Environment) (o : Options) (s : Settings) : Option String :=
  if o.ephemeral then none
  else
    match o.snapshot with
    | some path => some (Host.expand env path)
    | none =>
      if s.storage.isEphemeral then none else some (Host.expand env s.storage.snapshot)

/-- The line that reports why a run ended. -/
def report (f : Store.Fault) : String :=
  "Error: " ++ f.kind ++ "(" ++ Text.quoted f.subject ++ ")\n"

/-- A run with the given options and settings. -/
def runWith (env : Environment) (o : Options) (s : Settings) (input : String) : m Exit := do
  let path := snapshotPath? env o s
  match ← loadTree path with
  | .error f => return { code := 1, out := "", err := report f }
  | .ok tree =>
    let (exit, tree) ←
      match o.command with
      | some line => pure (runLine s line tree)
      | none => runInput env s input tree
    match ← saveTree tree path with
    | .ok () => return exit
    | .error f => return { exit with code := 1, err := exit.err ++ report f }

/-- A run. Settings that cannot be loaded are as built in. -/
def run (arguments : List String) (env : Environment) (input : String) : m Exit := do
  match parse arguments with
  | .error misuse => return { code := 2, out := "", err := "error: " ++ misuse.message ++ "\n" }
  | .ok .help => return { code := 0, out := helpText (env.getD "VOS_CONFIG"), err := "" }
  | .ok .version =>
    return { code := 0, out := programName ++ " " ++ programVersion ++ "\n", err := "" }
  | .ok (.run o) =>
    let loaded ← Settings.load env (o.config.or (env.get? "VOS_CONFIG"))
    runWith env o (loaded.toOption.getD .builtIn) input

end TreeShell.Cli
