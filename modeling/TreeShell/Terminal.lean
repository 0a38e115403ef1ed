/-!
# The terminal

Lines waiting to be read, and a record of everything that happened on the terminal.

* `readLine` records the prompt and takes the next line; `none` once there is no more.
* `lines` and `errors` are what was written on the two channels.
-/

namespace TreeShell

/-- Something that happened on a terminal. -/
inductive Event
  | prompt (text : String)
  | line (text : String)
  | error (text : String)
  | screenCleared
  | inputCleared
deriving DecidableEq, Repr

/-- The text of a line on the info channel. -/
def Event.line? : Event → Option String
  | .line s => some s
  | _ => none

/-- The text of a line on the error channel. -/
def Event.error? : Event → Option String
  | .error s => some s
  | _ => none

/-- Lines not read yet, and what has happened, in order. -/
structure Terminal where
  input : List String
  events : List Event
deriving DecidableEq, Repr

namespace Terminal

/-- A terminal on which nothing has happened. -/
def ofInput (lines : List String) : Terminal :=
  { input := lines, events := [] }

/-- Records an event. -/
def record (t : Terminal) (e : Event) : Terminal :=
  { t with events := t.events ++ [e] }

/-- Writes a line on the info channel. -/
def writeLine (t : Terminal) (s : String) : Terminal :=
  t.record (.line s)

/-- Writes a line on the error channel. -/
def writeError (t : Terminal) (s : String) : Terminal :=
  t.record (.error s)

/-- Clears the screen. -/
def clearScreen (t : Terminal) : Terminal :=
  t.record .screenCleared

/-- Drops what was typed but not sent; whole lines that wait stay. -/
def clearInput (t : Terminal) : Terminal :=
  t.record .inputCleared

/-- Adds a line at the end of those that wait. -/
def pushInput (t : Terminal) (line : String) : Terminal :=
  { t with input := t.input ++ [line] }

/-- Shows a prompt and takes the next line; `none` if the terminal is closed. -/
def readLine (t : Terminal) (prompt : String) : Option String × Terminal :=
  let t := t.record (.prompt prompt)
  match t.input with
  | [] => (none, t)
  | line :: rest => (some line, { t with input := rest })

/-- Everything written on the info channel. -/
def lines (t : Terminal) : List String :=
  t.events.filterMap Event.line?

/-- Everything written on the error channel. -/
def errors (t : Terminal) : List String :=
  t.events.filterMap Event.error?

/-- The terminal with its record emptied. -/
def forget (t : Terminal) : Terminal :=
  { t with events := [] }

end Terminal

end TreeShell
