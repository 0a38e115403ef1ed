import TreeShell.Host.Basic
import TreeShell.Store.Tree

/-!
# A disk

A host made of nothing but files and directories.

* `Disk.reach?`: where a path leads. `..` is the directory around the one reached so far; nothing
  lies in a file.
* `StateM Disk` is a host.
-/

namespace TreeShell.Host

open Store (Entry)

/-- Files and directories by absolute path, and the directory where relative paths begin. -/
structure Disk where
  entries : Std.ExtTreeMap String Entry
  workDir : List String
deriving DecidableEq

namespace Disk

/-- A disk with nothing but a working directory of that name. -/
def blank (workDir : String) : Disk where
  entries := (∅ : Std.ExtTreeMap String Entry).insert ("/" ++ workDir) .dir
  workDir := [workDir]

/-- The entry at a place, given by the names that lead to it. -/
def get? (d : Disk) (names : List String) : Option Entry :=
  if names = [] then some .dir else d.entries[Path.ofParts names]?

/-- The disk with an entry put at a place. -/
def put (d : Disk) (names : List String) (e : Entry) : Disk :=
  { d with entries := d.entries.insert (Path.ofParts names) e }

/-- The length in bytes that no name exceeds. -/
def maxName : Nat := 255

/-- The length in bytes that no path reaches. -/
def maxPath : Nat := 4096

/-- The place that the parts of a path lead to, from a given one. Each part but the last has to lead
to a directory. -/
def follow (d : Disk) : List String → List String → Except Errno (List String)
  | place, [] => .ok place
  | place, part :: parts =>
    match d.get? place with
    | none => .error .noEntry
    | some (.file _) => .error .notDirectory
    | some .dir =>
      if part = "" || part = "." then d.follow place parts
      else if part = ".." then d.follow place.dropLast parts
      else if maxName < part.utf8ByteSize then .error .nameTooLong
      else d.follow (place ++ [part]) parts

/-- The parts of a path. -/
def partsOf (path : String) : List String :=
  (path.toList.splitOn '/').map String.ofList

/-- The place a path leads to, whether or not anything is there. -/
def reach (d : Disk) (path : String) : Except Errno (List String) :=
  if path = "" then .error .noEntry
  else if path.toList.contains '\x00' then .error .nulInPath
  else if maxPath ≤ path.utf8ByteSize then .error .nameTooLong
  else d.follow (if path.toList.head? = some '/' then [] else d.workDir) (partsOf path)

/-- The path without the slashes at its end, unless it is nothing but slashes. -/
def withoutSlashes (path : String) : String :=
  match path.toList.reverse.dropWhile (· = '/') with
  | [] => path
  | s => String.ofList s.reverse

/-- The place and what is there. -/
def find (d : Disk) (path : String) : Except Errno Entry := do
  let place ← d.reach path
  match d.get? place with
  | some e => .ok e
  | none => .error .noEntry

/-- Whether the path leads to a directory. -/
def isDirectory (d : Disk) (path : String) : Bool :=
  match d.find path with
  | .ok .dir => true
  | _ => false

/-- The text of a file. -/
def readText (d : Disk) (path : String) : Except Errno String := do
  match ← d.find path with
  | .file text => .ok text
  | .dir => .error .isDirectory

/-- The disk with a file created or overwritten. A path that ends with a slash names no file. -/
def writeText (d : Disk) (path text : String) : Except Errno Disk := do
  if path.toList.getLast? = some '/' then
    let _ ← d.reach (withoutSlashes path)
    .error .isDirectory
  else
    let place ← d.reach path
    match d.get? place with
    | some .dir => .error .isDirectory
    | _ => .ok (d.put place (.file text))

/-- The disk with a new directory. -/
def makeDirectory (d : Disk) (path : String) : Except Errno Disk := do
  let place ← d.reach (withoutSlashes path)
  match d.get? place with
  | some _ => .error .exists
  | none => .ok (d.put place .dir)

/-- The disk with a directory at the path, unless the host refuses; there may be one already. -/
def ensureDirectory (d : Disk) (path : String) : Except Errno Disk :=
  match d.makeDirectory path with
  | .ok d => .ok d
  | .error e => if d.isDirectory path then .ok d else .error e

/-- The disk with a directory at the path, made in a directory that is made first if it is missing.
At most `n` directories are missing. -/
def makeDirectoriesUpTo : Nat → Disk → String → Except Errno Disk
  | 0, d, path => d.ensureDirectory path
  | n + 1, d, path =>
    if path = "" then .ok d
    else
      match d.makeDirectory path, parent? path with
      | .error .noEntry, some parent => do
        (← makeDirectoriesUpTo n d parent).ensureDirectory path
      | _, _ => d.ensureDirectory path

/-- The disk with a directory at the path and everywhere on the way to it. -/
def makeDirectories (d : Disk) (path : String) : Except Errno Disk :=
  makeDirectoriesUpTo (path.length + 1) d path

/-- A change as an answer: a refusal leaves the disk as it was. -/
def commit (change : Disk → Except Errno Disk) : StateM Disk (Except Errno Unit) := fun d =>
  match change d with
  | .ok d => (.ok (), d)
  | .error e => (.error e, d)

instance : Host (StateM Disk) where
  exists? path := fun d => ((d.find path).toBool, d)
  readText path := fun d => (d.readText path, d)
  writeText path text := commit (·.writeText path text)
  makeDirectories path := commit (·.makeDirectories path)

end Disk

end TreeShell.Host
