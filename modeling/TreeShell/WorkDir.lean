/-!
# The working directory

How a command's argument becomes an absolute path, and where `cd` leads.

* `locate`: an argument is only put behind the working directory, not tidied.
* `tidy`: drops empty parts and `.`, lets `..` take back the part before it.
* `move`: the directory after `cd`.

Only `/` separates parts here; a backslash is a character of a name.
-/

namespace TreeShell.WorkDir

/-- The absolute path an argument stands for. No argument, or an empty one, is `cwd` itself. -/
def locate (arg : Option String) (cwd : String) : String :=
  match arg with
  | none => cwd
  | some p =>
    if p = "" then cwd
    else if p.toList.head? = some '/' then p
    else cwd ++ "/" ++ p

/-- One part taken onto the stack of names above it. -/
def push (stack : List String) (part : String) : List String :=
  if part = "" || part = "." then stack
  else if part = ".." then stack.dropLast
  else stack ++ [part]

/-- The names left when every `..` has taken back the name before it. -/
def names (path : String) : List String :=
  ((path.toList.splitOn '/').map String.ofList).foldl push []

/-- The tidy spelling of an absolute path. Going above the root stays at the root. -/
def tidy (path : String) : String :=
  "/" ++ "/".intercalate (names path)

/-- The directory `cd target` leads to from `cwd`. -/
def move (cwd : String) (target : Option String) : String :=
  tidy (locate target cwd)

end TreeShell.WorkDir
