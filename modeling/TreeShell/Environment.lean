/-!
# The environment of a run

Named values that a run is started with.
-/

namespace TreeShell

/-- The variables of a run. Of two with one name the first counts. -/
structure Environment where
  bindings : List (String × String)
  /-- The home directory in the account of the user, if it is known. -/
  accountHome : Option String
deriving DecidableEq, Repr

namespace Environment

/-- What follows the name and an equals sign in the text of a binding, which has an equals sign
behind its own name. So a name that holds one itself can reach into the value. -/
def valueAfter? (name : String) (binding : String × String) : Option String :=
  let text := (binding.1 ++ "=" ++ binding.2).toList
  let start := (name ++ "=").toList
  if start.isPrefixOf text then some (String.ofList (text.drop start.length)) else none

/-- The value of a variable, if it is set. -/
def get? (env : Environment) (name : String) : Option String :=
  env.bindings.findSome? (valueAfter? name)

/-- The value of a variable; nothing if it is not set. -/
def getD (env : Environment) (name : String) : String :=
  (env.get? name).getD ""

/-- The home directory: the one that is named, or else that of the account. -/
def home? (env : Environment) : Option String :=
  ((env.get? "HOME").filter (· ≠ "")).or env.accountHome

end Environment

end TreeShell
