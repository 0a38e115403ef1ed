/-!
# Built-in commands

The commands the shell knows, with the lines `help` prints about them.

* `Builtin.all` is the order in which `help` lists them.
* `Builtin.ofName?` finds a command by its name.
-/

namespace TreeShell.Command

/-- A command the shell knows. -/
inductive Builtin
  | ls | cat | help | exit | clear | cd | echo | mkdir | rmdir | rm | touch | cp | mv | pwd | grep
deriving DecidableEq, Repr

namespace Builtin

/-- Every command, in the order `help` lists them. -/
def all : List Builtin :=
  [ls, cat, help, exit, clear, cd, echo, mkdir, rmdir, rm, touch, cp, mv, pwd, grep]

/-- What the user types. -/
def name : Builtin → String
  | ls => "ls"
  | cat => "cat"
  | help => "help"
  | exit => "exit"
  | clear => "clear"
  | cd => "cd"
  | echo => "echo"
  | mkdir => "mkdir"
  | rmdir => "rmdir"
  | rm => "rm"
  | touch => "touch"
  | cp => "cp"
  | mv => "mv"
  | pwd => "pwd"
  | grep => "grep"

/-- What the command does, in a few words. -/
def summary : Builtin → String
  | ls => "List directory contents"
  | cat => "Print a file"
  | help => "Show available commands"
  | exit => "Exit the shell"
  | clear => "Clear the terminal screen"
  | cd => "Change the current directory"
  | echo => "Display a line of text"
  | mkdir => "Create a directory"
  | rmdir => "Remove an empty directory"
  | rm => "Remove a file"
  | touch => "Create an empty file"
  | cp => "Copy a file"
  | mv => "Move a file"
  | pwd => "Print the current directory"
  | grep => "Keep piped lines containing a pattern"

/-- How the command is called. -/
def usage : Builtin → String
  | ls => "ls [DIR]"
  | cat => "cat FILE"
  | help => "help [COMMAND]"
  | exit => "exit"
  | clear => "clear"
  | cd => "cd [DIR]"
  | echo => "echo [STRING]..."
  | mkdir => "mkdir DIR"
  | rmdir => "rmdir DIR"
  | rm => "rm FILE"
  | touch => "touch FILE"
  | cp => "cp SOURCE DEST"
  | mv => "mv SOURCE DEST"
  | pwd => "pwd"
  | grep => "... | grep PATTERN"

/-- The command of that name. -/
def ofName? (n : String) : Option Builtin :=
  all.find? fun b => b.name = n

/-- The block `help` prints for one command. -/
def helpText (b : Builtin) : String :=
  b.name ++ " - " ++ b.summary ++ "\nUsage: " ++ b.usage

end Builtin

/-- The line `help` prints for a list of names. -/
def helpList (names : List String) : String :=
  "Available commands: " ++ ", ".intercalate names

/-- The answer to a name that cannot be run. -/
def unknownCommand (name : String) : String :=
  "Unknown command: " ++ name ++ ". Type \"help\" for available commands."

end TreeShell.Command
