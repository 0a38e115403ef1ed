/-!
# The host

What a run asks of the computer it runs on: files, addressed by the host's own paths.

* `Errno`: why the host refuses, and its wording.
* `Host`: the requests, in whatever monad carries them out.
* `parent?`, `extension?`: the directory that a path names its file in, and the kind of the file.
-/

namespace TreeShell

/-- Why the host refuses. -/
inductive Errno
  | noEntry
  | exists
  | notDirectory
  | isDirectory
  | nameTooLong
  /-- The path holds the character that ends texts on the host. -/
  | nulInPath
  | other (reason : String)
deriving DecidableEq, Repr

/-- The wording of a refusal. -/
def Errno.message : Errno → String
  | noEntry => "No such file or directory (os error 2)"
  | .exists => "File exists (os error 17)"
  | notDirectory => "Not a directory (os error 20)"
  | isDirectory => "Is a directory (os error 21)"
  | nameTooLong => "File name too long (os error 36)"
  | nulInPath => "file name contained an unexpected NUL byte"
  | other reason => reason

/-- The files of the computer. -/
class Host (m : Type → Type) where
  /-- Whether the path leads to anything. -/
  exists? : String → m Bool
  /-- The text of a file. -/
  readText : String → m (Except Errno String)
  /-- Creates or overwrites a file. -/
  writeText : String → String → m (Except Errno Unit)
  /-- Makes a directory and those it needs. -/
  makeDirectories : String → m (Except Errno Unit)

namespace Host

/-- A part that names nothing. -/
def isIdle (part : List Char) : Bool :=
  part = [] || part = ['.']

/-- The parts without the idle ones at the end. The first part says where a path begins, and is
never idle. -/
def trimParts : List (List Char) → List (List Char)
  | [] => []
  | first :: rest => first :: (rest.reverse.dropWhile isIdle).reverse

/-- The path of the directory that a path names its file in, as it is written. A path that names
nothing has none. -/
def parent? (path : String) : Option String :=
  match trimParts (path.toList.splitOn '/') with
  | [] => none
  | [[]] => none
  | parts =>
    match trimParts parts.dropLast with
    | [[]] => some "/"
    | front => some (String.ofList (List.intercalate ['/'] front))

/-- A path inside a directory. -/
def join (directory path : String) : String :=
  if directory = "" || directory.toList.getLast? = some '/' then directory ++ path
  else directory ++ "/" ++ path

/-- What stands behind the last dot in the name of a file, if something stands before it too. -/
def extension? (path : String) : Option String :=
  match (trimParts (path.toList.splitOn '/')).getLast? with
  | none => none
  | some name =>
    let ending := name.reverse.takeWhile (· ≠ '.')
    if name = ['.', '.'] || name.length ≤ ending.length + 1 then none
    else some (String.ofList ending.reverse)

end Host

end TreeShell
