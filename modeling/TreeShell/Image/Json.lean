import TreeShell.Image.Basic
import TreeShell.Json.Reader

/-!
# Images as JSON

* `Image.toJson` writes the four fields in order, `Image.ofJson` reads them in any order.
* `Image.load` reads an image and checks it.
-/

namespace TreeShell.Image

/-- Why an image is refused. -/
inductive Fault
  | malformed (rejection : Json.Rejection)
  | mismatch (name version : String)
deriving DecidableEq, Repr

/-- The wording of a fault. -/
def Fault.message : Fault → String
  | malformed r => r.message
  | mismatch name version => "checksum mismatch for " ++ name ++ " " ++ version

/-- The image as a value. -/
def value (i : Image) : Json.Value :=
  .record [("name", .text i.name), ("version", .text i.version),
    ("commands", .list (i.commands.map .text)), ("checksum", .text i.checksum)]

/-- The text of an image. -/
def toJson (i : Image) : String :=
  i.value.pretty

/-- The fields of an image read so far. -/
structure Draft where
  name : Option String
  version : Option String
  commands : Option (List String)
  checksum : Option String

/-- The fields of an image, all required. -/
def shape (depth : Nat) : Json.Shape Draft Image where
  expected := "struct CoreImage"
  fields := [
    .part "name" (·.name) (fun x d => { d with name := some x }) Json.asText,
    .part "version" (·.version) (fun x d => { d with version := some x }) Json.asText,
    .part "commands" (·.commands) (fun x d => { d with commands := some x })
      (Json.asList (depth - 1) Json.asText),
    .part "checksum" (·.checksum) (fun x d => { d with checksum := some x }) Json.asText]
  blank := ⟨none, none, none, none⟩
  finish
    | ⟨none, _, _, _⟩ => .error "name"
    | ⟨_, none, _, _⟩ => .error "version"
    | ⟨_, _, none, _⟩ => .error "commands"
    | ⟨_, _, _, none⟩ => .error "checksum"
    | ⟨some name, some version, some commands, some checksum⟩ =>
      .ok { name, version, commands, checksum }

/-- Reads the text of an image. -/
def ofJson (text : String) : Except Json.Rejection Image :=
  Json.readWhole (Json.asRecord Json.maxDepth (shape Json.maxDepth)) text

/-- Refuses an image whose checksum is not its own. -/
def verify (i : Image) : Except Fault Unit :=
  if i.isSound then .ok () else .error (.mismatch i.name i.version)

/-- Reads the text of an image and checks it. -/
def load (text : String) : Except Fault Image :=
  match ofJson text with
  | .error r => .error (.malformed r)
  | .ok i => (i.verify).map fun _ => i

end TreeShell.Image
