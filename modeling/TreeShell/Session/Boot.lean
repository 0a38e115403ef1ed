import TreeShell.Session.Loop

/-!
# Starting a session

Sessions are made from the image kept in the store. A store without one gets the canonical image.

* `Boot.install` writes the canonical image if there is nothing at its path.
* `Boot.load` reads the image and checks it.
* `Boot.start` does both and makes a session; `Boot.boot` also runs it.
-/

namespace TreeShell

open Store (Backend)

/-- What became of an installation. -/
inductive InstallStatus
  | created
  | alreadyPresent
  | failed
deriving DecidableEq, Repr

/-- How sessions are started. -/
structure Boot where
  /-- Where the image is kept. -/
  corePath : String
  /-- The template of the prompt. -/
  prompt : String
deriving DecidableEq, Repr

namespace Boot

variable {σ : Type} [Backend σ]

/-- Where the image is kept unless it is said otherwise. -/
def defaultCorePath : String := "/sys/core.json"

/-- Writes the canonical image unless something is there. A failure is reported. -/
def install (b : Boot) (m : Machine σ) : InstallStatus × Machine σ :=
  match Backend.has b.corePath m.store with
  | (true, store) => (.alreadyPresent, { m with store }.say "OS core already exists.")
  | (false, store) =>
    let m := { m with store }.say "Creating OS core..."
    match Backend.write b.corePath Image.canonical.toJson m.store with
    | (.ok (), store) => (.created, { m with store }.say "OS core created successfully.")
    | (.error f, store) =>
      (.failed, { m with store }.warn ("Error creating OS core: " ++ f.message))

/-- Reads the image and checks it. -/
def load (b : Boot) (m : Machine σ) : Reply (Machine σ) Image :=
  let m := m.say "Loading OS core..."
  match Backend.read b.corePath m.store with
  | (.error f, store) => (.error (.store f), { m with store })
  | (.ok text, store) => ((Image.load text).mapError .image, { m with store })

/-- Installs, loads, and makes a session of the image; `none` if there is no sound image. -/
def start (b : Boot) (m : Machine σ) : Option (Session σ) × Machine σ :=
  let (_, m) := b.install (m.say "Bootloader starting...")
  match b.load m with
  | (.ok image, m) =>
    let m := m.say "OS core loaded. Executing..."
    (some (m.session image.commands b.prompt), m)
  | (.error f, m) => (none, m.warn ("Error loading or executing OS core: " ++ f.message))

/-- Starts a session and runs it to its end. -/
def boot (b : Boot) (m : Machine σ) : Machine σ :=
  match b.start m with
  | (some s, _) => s.run.toMachine
  | (none, m) => m

end Boot

end TreeShell
