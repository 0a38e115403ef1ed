import TreeShell.Store.Tree

/-!
# What the shell asks of a store

The shell works on any store that answers eight kinds of request.

* `Backend`: the requests. An answer comes with the store as it is afterwards.
* `Tree` is a backend whose failing requests leave it as it was.
* `Guarded`: a backend that refuses to write or to delete.
* `Request`: a request as a value, for sequences of them.
-/

namespace TreeShell.Store

/-- A path-addressed store of texts. -/
class Backend (σ : Type) where
  /-- Whether the path leads to anything. -/
  has : String → σ → Bool × σ
  /-- The bare names in a directory. -/
  list : String → σ → Except Fault (List String) × σ
  /-- The content of a file. -/
  read : String → σ → Except Fault String × σ
  /-- Creates or overwrites a file. -/
  write : String → String → σ → Except Fault Unit × σ
  /-- Creates a file that must not be there yet. -/
  createFile : String → String → σ → Except Fault Unit × σ
  createDirectory : String → σ → Except Fault Unit × σ
  deleteFile : String → σ → Except Fault Unit × σ
  deleteDirectory : String → σ → Except Fault Unit × σ

/-- A change as an answer: a fault leaves the tree as it was. -/
def Tree.commit (t : Tree) : Except Fault Tree → Except Fault Unit × Tree
  | .ok t' => (.ok (), t')
  | .error f => (.error f, t)

instance : Backend Tree where
  has p t := (t.has p, t)
  list p t := (t.list p, t)
  read p t := (t.read p, t)
  write p c t := t.commit (t.write p c)
  createFile p c t := t.commit (t.createFile p c)
  createDirectory p t := t.commit (t.createDirectory p)
  deleteFile p t := t.commit (t.deleteFile p)
  deleteDirectory p t := t.commit (t.deleteDirectory p)

/-- A store that refuses some changes without looking at them. -/
structure Guarded (σ : Type) where
  inner : σ
  /-- No file is written and nothing is created. -/
  noWrite : Bool
  /-- Nothing is deleted. -/
  noDelete : Bool

namespace Guarded

variable {σ : Type}

/-- Asks the store inside. -/
def pass {α : Type} (g : Guarded σ) (ask : σ → α × σ) : α × Guarded σ :=
  let (a, s) := ask g.inner
  (a, { g with inner := s })

/-- Asks the store inside unless that is refused. -/
def refuse (g : Guarded σ) (refused : Bool) (path : String)
    (ask : σ → Except Fault Unit × σ) : Except Fault Unit × Guarded σ :=
  if refused then (.error (.permissionDenied path), g) else g.pass ask

instance [Backend σ] : Backend (Guarded σ) where
  has p g := g.pass (Backend.has p)
  list p g := g.pass (Backend.list p)
  read p g := g.pass (Backend.read p)
  write p c g := g.refuse g.noWrite p (Backend.write p c)
  createFile p c g := g.refuse g.noWrite p (Backend.createFile p c)
  createDirectory p g := g.refuse g.noWrite p (Backend.createDirectory p)
  deleteFile p g := g.refuse g.noDelete p (Backend.deleteFile p)
  deleteDirectory p g := g.refuse g.noDelete p (Backend.deleteDirectory p)

end Guarded

/-- A request with its arguments. -/
inductive Request
  | has (path : String)
  | list (path : String)
  | read (path : String)
  | write (path content : String)
  | createFile (path content : String)
  | createDirectory (path : String)
  | deleteFile (path : String)
  | deleteDirectory (path : String)
deriving DecidableEq, Repr

/-- What a request that does not fail is answered with. -/
inductive Answer
  | truth (value : Bool)
  | names (value : List String)
  | text (value : String)
  | done
deriving DecidableEq, Repr

/-- Puts a request to a store. -/
def Request.ask {σ : Type} [Backend σ] (r : Request) (s : σ) : Except Fault Answer × σ :=
  match r with
  | has p => (Backend.has p s).map (fun b => .ok (.truth b)) id
  | list p => (Backend.list p s).map (Except.map .names) id
  | read p => (Backend.read p s).map (Except.map .text) id
  | write p c => (Backend.write p c s).map (Except.map fun _ => .done) id
  | createFile p c => (Backend.createFile p c s).map (Except.map fun _ => .done) id
  | createDirectory p => (Backend.createDirectory p s).map (Except.map fun _ => .done) id
  | deleteFile p => (Backend.deleteFile p s).map (Except.map fun _ => .done) id
  | deleteDirectory p => (Backend.deleteDirectory p s).map (Except.map fun _ => .done) id

end TreeShell.Store
