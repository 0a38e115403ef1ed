import TreeShell.Settings.Json
import TreeShell.Yaml.Reader

/-!
# Settings in YAML

The same settings as in JSON, under the same names. A text without a document sets nothing.
-/

namespace TreeShell.Settings

open Yaml (Node Field)

/-- One of the values that have a name. -/
def named? {α : Type} (ofName? : String → Option α) (n root : Node) : Option α := do
  ofName? (← n.choice? root)

/-- The history settings. -/
def history? (n root : Node) : Option HistoryDraft :=
  n.record? [
    .part "enabled" (·.enabled) (fun x d => { d with enabled := some x }) Node.truth?,
    .part "file" (·.file) (fun x d => { d with file := some x }) Node.text?,
    .part "max_entries" (·.maxEntries) (fun x d => { d with maxEntries := some x })
      (Node.natural? maxNumber)] .blank root

/-- The session settings. -/
def shell? (n root : Node) : Option ShellDraft :=
  n.record? [
    .part "prompt" (·.prompt) (fun x d => { d with prompt := some x }) Node.text?,
    .part "loop_delay_ms" (·.loopDelay) (fun x d => { d with loopDelay := some x })
      (Node.natural? maxNumber),
    .part "history" (·.history) (fun x d => { d with history := some x }) history?] .blank root

/-- The start settings. -/
def start? (n root : Node) : Option StartDraft :=
  n.record? [
    .part "core_path" (·.corePath) (fun x d => { d with corePath := some x })
      Node.text?] .blank root

/-- The storage settings. -/
def storage? (n root : Node) : Option StorageDraft :=
  n.record? [
    .part "snapshot" (·.snapshot) (fun x d => { d with snapshot := some x })
      Node.text?] .blank root

/-- The logging settings. -/
def logging? (n root : Node) : Option LoggingDraft :=
  n.record? [
    .part "level" (·.level) (fun x d => { d with level := some x })
      (named? LogLevel.ofName?),
    .part "format" (·.format) (fun x d => { d with format := some x })
      (named? LogFormat.ofName?),
    .part "filter" (·.filter) (fun x d => { d with filter := some x }) Node.text?] .blank root

/-- All settings. -/
def draft? (n root : Node) : Option Draft :=
  n.record? [
    .part "shell" (·.shell) (fun x d => { d with shell := some x }) shell?,
    .part "boot" (·.boot) (fun x d => { d with boot := some x }) start?,
    .part "storage" (·.storage) (fun x d => { d with storage := some x }) storage?,
    .part "logging" (·.logging) (fun x d => { d with logging := some x }) logging?] .blank root

/-- What a YAML text sets. -/
def Draft.ofYaml? (text : String) : Option Draft := do
  match ← Yaml.document? text with
  | none => some .blank
  | some root => draft? root root

/-- The log level that is the whole of a YAML text. -/
def LogLevel.ofYaml? (text : String) : Option LogLevel := do
  match ← Yaml.document? text with
  | none => none
  | some root => named? LogLevel.ofName? root root

end TreeShell.Settings
