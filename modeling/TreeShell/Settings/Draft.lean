import TreeShell.Settings.Basic

/-!
# What a file sets

A file sets some of the settings. `Draft.complete` takes the others from the built-in ones.
-/

namespace TreeShell.Settings

/-- The part of the history settings that is given. -/
structure HistoryDraft where
  enabled : Option Bool
  file : Option String
  maxEntries : Option Nat
deriving DecidableEq, Repr

/-- The part of the session settings that is given. -/
structure ShellDraft where
  prompt : Option String
  loopDelay : Option Nat
  history : Option HistoryDraft
deriving DecidableEq, Repr

/-- The part of the start settings that is given. -/
structure StartDraft where
  corePath : Option String
deriving DecidableEq, Repr

/-- The part of the storage settings that is given. -/
structure StorageDraft where
  snapshot : Option String
deriving DecidableEq, Repr

/-- The part of the logging settings that is given. -/
structure LoggingDraft where
  level : Option LogLevel
  format : Option LogFormat
  filter : Option String
deriving DecidableEq, Repr

/-- The part of the settings that is given. -/
structure Draft where
  shell : Option ShellDraft
  boot : Option StartDraft
  storage : Option StorageDraft
  logging : Option LoggingDraft
deriving DecidableEq, Repr

/-- No history setting is given. -/
def HistoryDraft.blank : HistoryDraft := ⟨none, none, none⟩

/-- No session setting is given. -/
def ShellDraft.blank : ShellDraft := ⟨none, none, none⟩

/-- No start setting is given. -/
def StartDraft.blank : StartDraft := ⟨none⟩

/-- No storage setting is given. -/
def StorageDraft.blank : StorageDraft := ⟨none⟩

/-- No logging setting is given. -/
def LoggingDraft.blank : LoggingDraft := ⟨none, none, none⟩

/-- Nothing is given. -/
def Draft.blank : Draft := ⟨none, none, none, none⟩

/-- The history settings, the missing ones as built in. -/
def HistoryDraft.complete (d : HistoryDraft) : History where
  enabled := d.enabled.getD History.builtIn.enabled
  file := d.file.getD History.builtIn.file
  maxEntries := d.maxEntries.getD History.builtIn.maxEntries

/-- The session settings, the missing ones as built in. -/
def ShellDraft.complete (d : ShellDraft) : Shell where
  prompt := d.prompt.getD Shell.builtIn.prompt
  loopDelay := d.loopDelay.getD Shell.builtIn.loopDelay
  history := (d.history.getD .blank).complete

/-- The start settings, the missing ones as built in. -/
def StartDraft.complete (d : StartDraft) : Start where
  corePath := d.corePath.getD Start.builtIn.corePath

/-- The storage settings, the missing ones as built in. -/
def StorageDraft.complete (d : StorageDraft) : Storage where
  snapshot := d.snapshot.getD Storage.builtIn.snapshot

/-- The logging settings, the missing ones as built in. -/
def LoggingDraft.complete (d : LoggingDraft) : Logging where
  level := d.level.getD Logging.builtIn.level
  format := d.format.getD Logging.builtIn.format
  filter := d.filter.getD Logging.builtIn.filter

/-- The settings, the missing ones as built in. -/
def Draft.complete (d : Draft) : Settings where
  shell := (d.shell.getD .blank).complete
  boot := (d.boot.getD .blank).complete
  storage := (d.storage.getD .blank).complete
  logging := (d.logging.getD .blank).complete

end TreeShell.Settings
