import TreeShell.Command.Builtin
import TreeShell.Digest.Sha256

/-!
# Core images

An image names the commands a session may run, under a checksum.

* `Image.sealed`: the text under the checksum.
* `Image.canonical`: the image that enables every built-in command.
* `Image.verify` refuses an image whose checksum is not that of its own fields.
-/

namespace TreeShell

/-- A persisted definition of what a session may run. -/
structure Image where
  name : String
  version : String
  commands : List String
  checksum : String
deriving DecidableEq, Repr

namespace Image

/-- The text under the checksum: name, version and commands, a line each. -/
def sealed (name version : String) (commands : List String) : String :=
  name ++ "\n" ++ version ++ "\n" ++ ",".intercalate commands

/-- The digest of the sealed text in UTF-8. -/
def checksumOf (name version : String) (commands : List String) : String :=
  Sha256.hex (sealed name version commands).toUTF8.toList

/-- The image with these fields and their checksum. -/
def make (name version : String) (commands : List String) : Image :=
  { name, version, commands, checksum := checksumOf name version commands }

/-- The image that is installed: every built-in command is enabled. -/
def canonical : Image :=
  make "vsh" "0.1.0" (Command.Builtin.all.map Command.Builtin.name)

/-- Whether the checksum is that of the other fields. -/
def isSound (i : Image) : Bool :=
  checksumOf i.name i.version i.commands = i.checksum

end Image

end TreeShell
