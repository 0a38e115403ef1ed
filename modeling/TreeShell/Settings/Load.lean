import TreeShell.Host.Basic
import TreeShell.Settings.Variables
import TreeShell.Settings.Yaml

/-!
# Loading the settings of a run

The settings come from files, and some of them from variables.

* `source`: the one file named, or the files that are looked for, which may be missing.
* `Settings.ofLayers`: the files over the built-in settings, in order.
* `Settings.adjust`: the variables over the files.
* `Settings.load` asks the host for the files.
-/

namespace TreeShell.Settings

/-- Why the settings cannot be loaded. -/
inductive Fault
  | unreadable (path : String) (cause : Errno)
  | malformedJson (rejection : Json.Rejection)
  | malformedYaml
  /-- The path of the image does not begin at the root. -/
  | relativeCore (path : String)
deriving DecidableEq, Repr

/-- The wording of a fault. -/
def Fault.message : Fault → String
  | unreadable path cause => "Failed to read config file " ++ path ++ ": " ++ cause.message
  | malformedJson r => "Failed to parse JSON: " ++ r.message
  | malformedYaml => "Failed to parse YAML"
  | relativeCore path =>
    "Invalid config value: boot.core_path must be absolute, got '" ++ path ++ "'"

/-! ## Files -/

/-- Where settings come from. -/
inductive Source
  /-- One file, which has to be there. -/
  | file (path : String)
  /-- Several files, each over those before it. -/
  | layers (paths : List String)
deriving DecidableEq, Repr

/-- The directory where a user keeps settings, if there is one. -/
def userDirectory? (env : Environment) : Option String :=
  match (env.get? "XDG_CONFIG_HOME").filter (·.toList.head? = some '/') with
  | some directory => some directory
  | none => env.home?.map (Host.join · ".config")

/-- The files that are looked for: of the system, of the user, and of the working directory. -/
def searchPaths (env : Environment) : List String :=
  "/etc/vos/vos.yaml" ::
    ((userDirectory? env).map (Host.join · "vos/vos.yaml")).toList ++ ["./vos.yaml"]

/-- Where settings come from. A file named by the environment comes before one named otherwise. -/
def source (env : Environment) (explicit : Option String) : Source :=
  match (env.get? "VOS_CONFIG").or explicit with
  | some path => .file path
  | none => .layers (searchPaths env)

/-- What a file sets, given its text. The name of the file says in which format it is. -/
def Draft.ofFile (env : Environment) (path text : String) : Except Fault Draft :=
  let text := fill env text
  if Host.extension? path = some "json" then (Draft.ofJson text).mapError .malformedJson
  else
    match Draft.ofYaml? text with
    | some d => .ok d
    | none => .error .malformedYaml

/-- The settings in a file, given what came of reading it. -/
def ofFile (env : Environment) (path : String) (text : Except Errno String) :
    Except Fault Settings := do
  let text ← text.mapError (.unreadable path)
  let d ← Draft.ofFile env path text
  .ok d.complete

/-- The settings in some files, each over those before it, the first over the given ones. -/
def ofLayers (env : Environment) (lower : Settings) :
    List (String × Except Errno String) → Except Fault Settings
  | [] => .ok lower
  | (path, text) :: layers => do
    let upper ← ofFile env path text
    ofLayers env (lower.overlay upper) layers

/-! ## Variables -/

/-- A natural number in decimal digits; a plus sign may come first. -/
def decimal? (text : String) : Option Nat :=
  let s := text.toList
  Yaml.digitsValue? 10 (if s.head? = some '+' then s.drop 1 else s)

/-- The settings with those that variables set. A variable that makes no sense sets nothing. -/
def adjust (env : Environment) (s : Settings) : Settings where
  shell := { s.shell with
    loopDelay := (((env.get? "VOS_LOOP_DELAY_MS").bind decimal?).filter (· ≤ maxNumber)).getD
      s.shell.loopDelay }
  boot := { s.boot with
    corePath := ((env.get? "VOS_CORE_PATH").filter (· ≠ "")).getD s.boot.corePath }
  storage := { s.storage with
    snapshot := (env.get? "VOS_SNAPSHOT").getD s.storage.snapshot }
  logging := { s.logging with
    level := ((env.get? "VOS_LOG_LEVEL").bind LogLevel.ofYaml?).getD s.logging.level }

/-- Refuses settings that cannot be used. -/
def check (s : Settings) : Except Fault Settings :=
  if s.boot.corePath.toList.head? = some '/' then .ok s
  else .error (.relativeCore s.boot.corePath)

/-- The settings of a run, given those of the files. -/
def finish (env : Environment) (files : Except Fault Settings) : Except Fault Settings := do
  check ((← files).adjust env)

/-! ## Loading -/

variable {m : Type → Type} [Monad m] [Host m]

/-- A file that is there, and what comes of reading it. -/
def readLayer (path : String) : m (String × Except Errno String) := do
  return (path, ← Host.readText path)

/-- The settings of a run, from the file that is named or else from those that are found. -/
def load (env : Environment) (explicit : Option String) : m (Except Fault Settings) := do
  match source env explicit with
  | .file path => return finish env (ofFile env path (← Host.readText path))
  | .layers paths =>
    let layers ← (← paths.filterM Host.exists?).mapM readLayer
    return finish env (ofLayers env .builtIn layers)

end TreeShell.Settings
