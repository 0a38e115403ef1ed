import TreeShell.Session.Boot
import TreeShell.Text.Blank

/-!
# Settings

What can be set for a run, in four sections, and the values built in.

* `Settings.builtIn`: every setting as it is if nothing sets it.
* `Settings.overlay`: one layer of settings over another, section by section.
-/

namespace TreeShell

namespace Settings

/-- How much is logged. -/
inductive LogLevel
  | trace
  | debug
  | info
  | warn
  | error
deriving DecidableEq, Repr

/-- The levels, from the most to the least that is logged. -/
def LogLevel.all : List LogLevel := [trace, debug, info, warn, error]

/-- The name of a level. -/
def LogLevel.name : LogLevel → String
  | trace => "trace"
  | debug => "debug"
  | info => "info"
  | warn => "warn"
  | error => "error"

/-- The level of that name. -/
def LogLevel.ofName? (name : String) : Option LogLevel :=
  all.find? (·.name = name)

/-- How log lines look. -/
inductive LogFormat
  | pretty
  | json
  | compact
deriving DecidableEq, Repr

/-- The formats. -/
def LogFormat.all : List LogFormat := [pretty, json, compact]

/-- The name of a format. -/
def LogFormat.name : LogFormat → String
  | pretty => "pretty"
  | json => "json"
  | compact => "compact"

/-- The format of that name. -/
def LogFormat.ofName? (name : String) : Option LogFormat :=
  all.find? (·.name = name)

/-- The lines typed in earlier runs. -/
structure History where
  enabled : Bool
  /-- The host file that keeps them. -/
  file : String
  maxEntries : Nat
deriving DecidableEq, Repr

/-- The interactive session. -/
structure Shell where
  /-- The template of the prompt. -/
  prompt : String
  /-- The pause between two lines, in milliseconds. -/
  loopDelay : Nat
  history : History
deriving DecidableEq, Repr

/-- How sessions are started. -/
structure Start where
  /-- Where the image is kept. -/
  corePath : String
deriving DecidableEq, Repr

/-- Where the tree is kept between runs. -/
structure Storage where
  /-- The host file of the snapshot. -/
  snapshot : String
deriving DecidableEq, Repr

/-- What is logged. -/
structure Logging where
  level : LogLevel
  format : LogFormat
  filter : String
deriving DecidableEq, Repr

/-- Whether the tree is kept in memory only. -/
def Storage.isEphemeral (s : Storage) : Bool :=
  Text.allBlank s.snapshot

/-- What selects the log lines: the filter, or the level if there is no filter. -/
def Logging.directive (l : Logging) : String :=
  if l.filter = "" then l.level.name else l.filter

/-- The history as it is if nothing sets it. -/
def History.builtIn : History :=
  { enabled := true, file := "~/.vos_history", maxEntries := 10000 }

/-- The interactive session as it is if nothing sets it. -/
def Shell.builtIn : Shell :=
  { prompt := defaultPrompt, loopDelay := 100, history := .builtIn }

/-- The start of sessions as it is if nothing sets it. -/
def Start.builtIn : Start :=
  { corePath := Boot.defaultCorePath }

/-- The storage as it is if nothing sets it. -/
def Storage.builtIn : Storage :=
  { snapshot := "~/.local/share/vos/fs.json" }

/-- The logging as it is if nothing sets it. -/
def Logging.builtIn : Logging :=
  { level := .warn, format := .compact, filter := "" }

end Settings

/-- All settings of a run. -/
structure Settings where
  shell : Settings.Shell
  boot : Settings.Start
  storage : Settings.Storage
  logging : Settings.Logging
deriving DecidableEq, Repr

namespace Settings

/-- All settings as they are if nothing sets them. -/
def builtIn : Settings :=
  { shell := .builtIn, boot := .builtIn, storage := .builtIn, logging := .builtIn }

/-- A section of the upper layer, unless it is as built in. -/
def pick {α : Type} [DecidableEq α] (builtIn lower upper : α) : α :=
  if upper = builtIn then lower else upper

/-- One layer of settings over another. A section of the upper layer counts as a whole, and only if
it differs from the built-in one. -/
def overlay (lower upper : Settings) : Settings where
  shell := pick .builtIn lower.shell upper.shell
  boot := pick .builtIn lower.boot upper.boot
  storage := pick .builtIn lower.storage upper.storage
  logging := pick .builtIn lower.logging upper.logging

end Settings

end TreeShell
