import TreeShell.Json.Reader
import TreeShell.Snapshot.Basic

/-!
# Snapshots as JSON

* `Snapshot.toJson` writes the number of the format and the entries by path.
* `Snapshot.ofJson` reads them; of a path that occurs twice the last entry counts.
* An entry is a record with a tag that says whether it is a file or a directory.
-/

namespace TreeShell

open Store (Entry Fault)

/-- The tags of entries. -/
def entryTags : List String := ["file", "dir"]

/-- An entry as a value. -/
def Store.Entry.value : Entry → Json.Value
  | .file content => .record [("type", .text "file"), ("content", .text content)]
  | .dir => .record [("type", .text "dir")]

/-- A value as the content of a file. -/
def contentOf : Json.Value → Except Json.Cause String
  | .text s => .ok s
  | v => .error (.wrongType v.found "a string")

/-- The content of a file among the fields of its record. -/
def contentField (content : Option String) :
    List (String × Json.Value) → Except Json.Cause String
  | [] =>
    match content with
    | none => .error (.missingField "content")
    | some s => .ok s
  | (key, v) :: fields =>
    if key = "content" then
      if content.isSome then .error (.duplicateField "content")
      else do contentField (some (← contentOf v)) fields
    else contentField content fields

/-- A file, from what its record holds besides the tag. -/
def fileOf : Json.Value → Except Json.Cause Entry
  | .record fields => (contentField none fields).map .file
  | .list [] => .error (.wrongLength 0 ("struct MemFile with " ++ Json.itemCount 1))
  | .list (v :: rest) => do
    let content ← contentOf v
    if rest = [] then .ok (.file content)
    else .error (.wrongLength (rest.length + 1) (Json.itemCount 1 ++ " in sequence"))
  | v => .error (.wrongType v.found "struct MemFile")

/-- A directory, from what its record holds besides the tag. -/
def dirOf : Json.Value → Except Json.Cause Entry
  | .list (v :: rest) =>
    .error (.wrongLength (v :: rest).length (Json.itemCount 0 ++ " in sequence"))
  | _ => .ok .dir

/-- An entry, from its tag and what its record holds besides. -/
def entryOf (tagged : String × Json.Value) : Except Json.Cause Entry :=
  if tagged.1 = "file" then fileOf tagged.2 else dirOf tagged.2

namespace Snapshot

/-- The snapshot as a value. -/
def value (s : Snapshot) : Json.Value :=
  .record [("format", .number (.integer s.format)),
    ("entries", .record (s.entries.toList.map fun (k, e) => (k, e.value)))]

/-- The text of a snapshot. -/
def toJson (s : Snapshot) : String :=
  s.value.pretty

/-- The fields of a snapshot read so far. -/
structure Draft where
  format : Option Nat
  entries : Option (List (String × Entry))

/-- The fields of a snapshot, all required. -/
def shape (depth : Nat) : Json.Shape Draft Snapshot where
  expected := "struct Snapshot"
  fields := [
    .part "format" (·.format) (fun x d => { d with format := some x })
      (Json.asNat "u32" 0xFFFFFFFF),
    .part "entries" (·.entries) (fun x d => { d with entries := some x })
      (Json.asMap (depth - 1)
        (Json.asTagged (depth - 2) "type" entryTags "internally tagged enum MemEntry") entryOf)]
  blank := ⟨none, none⟩
  finish
    | ⟨none, _⟩ => .error "format"
    | ⟨_, none⟩ => .error "entries"
    | ⟨some format, some entries⟩ => .ok { format, entries := Std.ExtTreeMap.ofList entries }

/-- The snapshot in a text, of any format. -/
def parse (text : String) : Except Json.Rejection Snapshot :=
  Json.readWhole (Json.asRecord Json.maxDepth (shape Json.maxDepth)) text

/-- Reads the text of a snapshot of the current format. -/
def ofJson (text : String) : Except Fault Snapshot :=
  match parse text with
  | .error r => .error (.invalidArgument ("malformed snapshot: " ++ r.message))
  | .ok s =>
    if s.format = currentFormat then .ok s
    else
      .error (.invalidArgument ("unsupported snapshot format " ++ toString s.format ++
        " (expected " ++ toString currentFormat ++ ")"))

end Snapshot

end TreeShell
