import TreeShell.Json.Reader
import TreeShell.Settings.Draft

/-!
# Settings in JSON

Every record of the settings may leave fields out and hold others; the latter are passed over.
-/

namespace TreeShell.Settings

/-- The greatest number that can be set. -/
def maxNumber : Nat := 0xFFFFFFFFFFFFFFFF

/-- A record all of whose fields may be missing. -/
def lenient {α : Type} (expected : String) (fields : List (Json.Field α)) (blank : α) :
    Json.Shape α α where
  expected := expected
  fields := fields
  blank := blank
  finish := .ok

/-- One of the values that have a name. -/
def asNamed {α : Type} (depth : Nat) (all : List α) (name : α → String) : Json.Reader α :=
  fun s => do
    let (n, s') ← Json.asChoice depth (all.map name) s
    match all.find? (name · = n) with
    | some x => .ok (x, s')
    | none => Json.failAt (.unknownVariant n (all.map name)) s'

/-- The history settings. -/
def asHistory (depth : Nat) : Json.Reader HistoryDraft :=
  Json.asRecord depth <| lenient "struct HistoryConfig" [
    .part "enabled" (·.enabled) (fun x d => { d with enabled := some x }) Json.asBool,
    .part "file" (·.file) (fun x d => { d with file := some x }) Json.asText,
    .part "max_entries" (·.maxEntries) (fun x d => { d with maxEntries := some x })
      (Json.asNat "usize" maxNumber)] .blank

/-- The session settings. -/
def asShell (depth : Nat) : Json.Reader ShellDraft :=
  Json.asRecord depth <| lenient "struct ShellConfig" [
    .part "prompt" (·.prompt) (fun x d => { d with prompt := some x }) Json.asText,
    .part "loop_delay_ms" (·.loopDelay) (fun x d => { d with loopDelay := some x })
      (Json.asNat "u64" maxNumber),
    .part "history" (·.history) (fun x d => { d with history := some x })
      (asHistory (depth - 1))] .blank

/-- The start settings. -/
def asStart (depth : Nat) : Json.Reader StartDraft :=
  Json.asRecord depth <| lenient "struct BootConfig" [
    .part "core_path" (·.corePath) (fun x d => { d with corePath := some x }) Json.asText] .blank

/-- The storage settings. -/
def asStorage (depth : Nat) : Json.Reader StorageDraft :=
  Json.asRecord depth <| lenient "struct StorageConfig" [
    .part "snapshot" (·.snapshot) (fun x d => { d with snapshot := some x }) Json.asText] .blank

/-- The logging settings. -/
def asLogging (depth : Nat) : Json.Reader LoggingDraft :=
  Json.asRecord depth <| lenient "struct LoggingConfig" [
    .part "level" (·.level) (fun x d => { d with level := some x })
      (asNamed (depth - 1) LogLevel.all LogLevel.name),
    .part "format" (·.format) (fun x d => { d with format := some x })
      (asNamed (depth - 1) LogFormat.all LogFormat.name),
    .part "filter" (·.filter) (fun x d => { d with filter := some x }) Json.asText] .blank

/-- All settings. -/
def asDraft (depth : Nat) : Json.Reader Draft :=
  Json.asRecord depth <| lenient "struct VosConfig" [
    .part "shell" (·.shell) (fun x d => { d with shell := some x }) (asShell (depth - 1)),
    .part "boot" (·.boot) (fun x d => { d with boot := some x }) (asStart (depth - 1)),
    .part "storage" (·.storage) (fun x d => { d with storage := some x }) (asStorage (depth - 1)),
    .part "logging" (·.logging) (fun x d => { d with logging := some x })
      (asLogging (depth - 1))] .blank

/-- What a JSON text sets. -/
def Draft.ofJson (text : String) : Except Json.Rejection Draft :=
  Json.readWhole (asDraft Json.maxDepth) text

end TreeShell.Settings
