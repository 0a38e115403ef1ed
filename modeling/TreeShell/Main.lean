import TreeShell.Cli.Run

/-!
# The program

Carries out a run on the computer itself.
-/

namespace TreeShell

/-- A refusal of the operating system. Some calls give its number negated. -/
def Errno.ofError : IO.Error → Errno
  | .noFileOrDirectory .. => noEntry
  | .alreadyExists .. => .exists
  | .inappropriateType _ number _ => if number = 20 || -number = 20 then notDirectory else isDirectory
  | e => other (toString e)

/-- What came of an action. -/
def Errno.attempt {α : Type} (action : IO α) : IO (Except Errno α) := do
  return (← action.toBaseIO).mapError ofError

instance : Host IO where
  exists? path := do
    match ← Errno.attempt (IO.FS.Handle.mk path .read) with
    | .error .noEntry => return false
    | .error .notDirectory => return false
    | _ => return true
  readText path := Errno.attempt (IO.FS.readFile path)
  writeText path text := Errno.attempt (IO.FS.writeFile path text)
  makeDirectories path := Errno.attempt (if path = "" then pure () else IO.FS.createDirAll path)

/-- A variable as the system shows it, a name and a value with an equals sign between them. -/
def Environment.entry (s : String) : String × String :=
  let name := s.toList.takeWhile (· ≠ '=')
  (String.ofList name, String.ofList (s.toList.drop (name.length + 1)))

/-- The variables of this run. -/
def Environment.current : IO Environment := do
  match ← Errno.attempt (IO.FS.readFile "/proc/self/environ") with
  | .error _ => return { bindings := [], accountHome := none }
  | .ok text =>
    let bindings := (text.toList.splitOn '\x00').map (entry ∘ String.ofList)
    return { bindings, accountHome := none }

/-- Everything that is left to read. -/
partial def readAll (input : IO.FS.Stream) : IO String := do
  let line ← input.getLine
  if line.isEmpty then return "" else return line ++ (← readAll input)

/-- The lines for a session. A run without a session reads none. -/
def inputFor (arguments : List String) : IO String := do
  match Cli.parse arguments with
  | .ok (.run o) => if o.command.isNone then readAll (← IO.getStdin) else return ""
  | _ => return ""

end TreeShell

open TreeShell in
/-- Runs the program on its arguments. -/
def main (arguments : List String) : IO UInt32 := do
  let exit ← Cli.run arguments (← Environment.current) (← inputFor arguments)
  IO.print exit.out
  IO.eprint exit.err
  return exit.code.toUInt32
