import TreeShell.Command.Line
import TreeShell.Image.Json
import TreeShell.Store.Backend
import TreeShell.Terminal
import TreeShell.Text.Infix
import TreeShell.WorkDir

/-!
# Sessions

A session is a store and a terminal, a working directory, and what the session may run.

* `Machine`: store and terminal, which outlive a session.
* `Failure`: why a step of a session fails. The state reached before the failure is kept.
-/

namespace TreeShell

/-- Why a step of a session fails. -/
inductive Failure
  | line (fault : Command.LineFault)
  | store (fault : Store.Fault)
  | image (fault : Image.Fault)
  /-- The terminal will never give another line. -/
  | closed
deriving DecidableEq, Repr

/-- The wording of a failure. -/
def Failure.message : Failure → String
  | line f => "Parse error: " ++ f.message
  | store f => f.message
  | image f => "Core image error: " ++ f.message
  | closed => "terminal closed"

/-- What one command gives. -/
inductive Outcome
  /-- Output, possibly empty. -/
  | text (output : String)
  /-- The session ends. -/
  | terminate
  /-- Nothing at all. -/
  | noValue
deriving DecidableEq, Repr

/-- What is handed to the next command of a pipeline. -/
def Outcome.piped : Outcome → String
  | text s => s
  | _ => ""

/-- Whether the session goes on after a line. -/
inductive LineStatus
  | proceed
  | stop
deriving DecidableEq, Repr

/-- A store and a terminal. -/
structure Machine (σ : Type) where
  store : σ
  terminal : Terminal

/-- One session. -/
structure Session (σ : Type) extends Machine σ where
  /-- The working directory. -/
  cwd : String
  /-- The names that may be run. -/
  commands : List String
  /-- The template of the prompt. -/
  prompt : String

/-- An answer, and the state after it. -/
abbrev Reply (σ α : Type) : Type :=
  Except Failure α × σ

namespace Machine

variable {σ : Type}

/-- Writes a line on the info channel. -/
def say (m : Machine σ) (s : String) : Machine σ :=
  { m with terminal := m.terminal.writeLine s }

/-- Writes a line on the error channel. -/
def warn (m : Machine σ) (s : String) : Machine σ :=
  { m with terminal := m.terminal.writeError s }

/-- A new session in the root directory. -/
def session (m : Machine σ) (commands : List String) (prompt : String) : Session σ :=
  { toMachine := m, cwd := "/", commands, prompt }

end Machine

/-- The prompt that shows the working directory. -/
def defaultPrompt : String := "\x7bcwd\x7d> "

/-- What stands for the working directory in a prompt. -/
def cwdMark : String := "\x7bcwd\x7d"

namespace Session

variable {σ : Type}

/-- Writes a line on the info channel. -/
def say (s : Session σ) (text : String) : Session σ :=
  { s with toMachine := s.toMachine.say text }

/-- Writes a line on the error channel. -/
def warn (s : Session σ) (text : String) : Session σ :=
  { s with toMachine := s.toMachine.warn text }

/-- Whether a name may be run. -/
def isEnabled (s : Session σ) (name : String) : Bool :=
  s.commands.contains name

/-- The prompt, with the working directory filled in. -/
def promptText (s : Session σ) : String :=
  Text.replaceAll cwdMark s.cwd s.prompt

/-- The absolute path an argument stands for. -/
def locate (s : Session σ) (arg : Option String) : String :=
  WorkDir.locate arg s.cwd

/-- Puts a request to the store. -/
def ask {α : Type} (s : Session σ) (request : σ → Except Store.Fault α × σ) :
    Reply (Session σ) α :=
  let (answer, store) := request s.store
  (answer.mapError .store, { s with store })

end Session

end TreeShell
