import TreeShell.Proofs.Store.Change

/-!
# Changes made in place

The changes of a tree, as programs that edit one tree step by step. Nothing is undone: what has been
edited before a fault stays edited.

* `Tree.edit_bind`: what one program after the other does.
* `Tree.edit_climb`, `Tree.edit_putDirs`: the search for missing directories edits nothing, and
  making them never fails.
* `Tree.edit_write`, `Tree.edit_create`, `Tree.edit_deleteFile`, `Tree.edit_deleteDirectory`: each
  change finds its fault before its first edit. So it is the change that gives a new tree or none.
* `Request.inPlace_edit`: **a request made in place is the request**, in its answer and in the tree
  it leaves.
-/

namespace TreeShell.Store

open TreeShell.Path

/-- A program that edits a tree, and may stop at a fault with the tree as edited so far. -/
abbrev Editing (α : Type) : Type := ExceptT Fault (StateM Tree) α

namespace Editing

/-- Binds `key` to `e`. -/
def put (key : String) (e : Entry) : Editing Unit := modify (·.bind key e)

/-- Takes `key` away. -/
def drop (key : String) : Editing Unit := modify (·.unbind key)

/-- Of the ancestors of a path, nearest first, those that are missing. -/
def climb : List String → Editing (List String)
  | [] => return []
  | d :: ds => do
    match (← get).get? d with
    | some .dir => return []
    | some (.file _) => throw (.notDirectory d)
    | none => return d :: (← climb ds)

/-- Makes one directory after the other. -/
def putDirs : List String → Editing Unit
  | [] => return ()
  | d :: ds => do
    put d .dir
    putDirs ds

/-- Makes the directories that a path needs, the outermost first. -/
def makeParents (q : String) : Editing Unit := do
  let missing ← climb (ancestors q)
  putDirs missing.reverse

/-- Stops unless the parent of a path is a directory. -/
def checkParent (q : String) : Editing Unit := do
  match parent? q with
  | none => throw (.alreadyExists q)
  | some d =>
    match (← get).get? d with
    | some .dir => return ()
    | some (.file _) => throw (.notDirectory d)
    | none => throw (.notFound d)

/-- Creates or overwrites a file, and the directories it needs. -/
def write (path content : String) : Editing Unit := do
  let q := canonical path
  if (← get).get? q = some .dir then throw (.isDirectory q)
  else
    makeParents q
    put q (.file content)

/-- Adds a new entry to an existing directory. -/
def create (path : String) (e : Entry) : Editing Unit := do
  let q := canonical path
  if ((← get).get? q).isSome then throw (.alreadyExists q)
  else
    checkParent q
    put q e

/-- Takes a file away. -/
def deleteFile (path : String) : Editing Unit := do
  let q := canonical path
  match (← get).get? q with
  | some (.file _) => drop q
  | some .dir => throw (.isDirectory q)
  | none => throw (.notFound q)

/-- Takes an empty directory away, but never the root. -/
def deleteDirectory (path : String) : Editing Unit := do
  let q := canonical path
  if q = "/" then throw (.permissionDenied "cannot remove root")
  else
    match (← get).get? q with
    | none => throw (.notFound q)
    | some (.file _) => throw (.notDirectory q)
    | some .dir => if (← get).occupied q then throw (.directoryNotEmpty q) else drop q

end Editing

namespace Tree

variable {α β : Type}

/-- Runs a program on a tree: its answer, and the tree as edited. -/
def edit (t : Tree) (m : Editing α) : Except Fault α × Tree := m.run.run t

/-! ## Running a program -/

theorem edit_bind (t : Tree) (m : Editing α) (next : α → Editing β) :
    t.edit (m >>= next) =
      match t.edit m with
      | (.ok a, t') => t'.edit (next a)
      | (.error f, t') => (.error f, t') := by
  unfold edit
  simp only [ExceptT.run_bind, StateT.run_bind]
  rcases m.run.run t with ⟨answer, t'⟩
  cases answer <;> rfl

@[simp] theorem edit_ofExcept (t : Tree) (answer : Except Fault α) :
    t.edit (ofExcept answer) = (answer, t) := by
  cases answer <;> rfl

@[simp] theorem edit_get (t : Tree) : t.edit get = (.ok t, t) := rfl

@[simp] theorem edit_put (t : Tree) (key : String) (e : Entry) :
    t.edit (.put key e) = (.ok (), t.bind key e) := rfl

theorem edit_map (t : Tree) (g : α → β) (m : Editing α) :
    t.edit (g <$> m) = (t.edit m).map (Except.map g) id := by
  unfold edit
  simp only [ExceptT.run_map, StateT.run_map]
  rcases m.run.run t with ⟨answer, t'⟩
  cases answer <;> rfl

/-- A program that starts by looking at the tree. -/
@[simp] theorem edit_look (t : Tree) (next : Tree → Editing β) :
    t.edit (get >>= next) = t.edit (next t) := by
  rw [edit_bind, edit_get]

/-! ## What stands on the way -/

/-- **The search for missing directories edits nothing.** -/
theorem edit_climb (t : Tree) (ds : List String) : t.edit (.climb ds) = (t.missing ds, t) := by
  induction ds with
  | nil => rfl
  | cons d ds ih =>
    unfold Editing.climb missing
    rw [edit_look]
    cases t.get? d with
    | some e => cases e <;> rfl
    | none =>
      simp only [edit_bind, ih]
      cases t.missing ds <;> rfl

/-- Making directories never fails. -/
theorem edit_putDirs (t : Tree) (ds : List String) :
    t.edit (.putDirs ds) = (.ok (), ds.foldl (fun t d => t.bind d .dir) t) := by
  induction ds generalizing t with
  | nil => rfl
  | cons d ds ih =>
    unfold Editing.putDirs
    rw [edit_bind, edit_put]
    exact ih _

theorem edit_makeParents (t : Tree) (q : String) :
    t.edit (.makeParents q) =
      match t.missing (ancestors q) with
      | .ok ds => (.ok (), t.addDirs ds)
      | .error f => (.error f, t) := by
  unfold Editing.makeParents
  rw [edit_bind, edit_climb]
  cases t.missing (ancestors q) with
  | error f => rfl
  | ok ds =>
    simp only [edit_putDirs]
    rw [List.foldl_reverse]
    rfl

/-! ## The changes -/

theorem edit_write (t : Tree) (path content : String) :
    t.edit (.write path content) = t.commit (t.write path content) := by
  unfold Editing.write write
  simp only [edit_look]
  split
  · rfl
  · -- a file on the way is met by the search, with nothing made yet
    rw [edit_bind, edit_makeParents]
    cases t.missing (ancestors (canonical path)) <;> rfl

theorem edit_create (t : Tree) (path : String) (e : Entry) :
    t.edit (.create path e) = t.commit (t.create path e) := by
  unfold Editing.create create Editing.checkParent
  simp only [edit_look]
  split
  · rfl
  cases parent? (canonical path) with
  | none => rfl
  | some d =>
    rw [edit_bind]
    simp only [edit_look]
    cases t.get? d with
    | none => rfl
    | some e' => cases e' <;> rfl

theorem edit_deleteFile (t : Tree) (path : String) :
    t.edit (.deleteFile path) = t.commit (t.deleteFile path) := by
  unfold Editing.deleteFile deleteFile
  simp only [edit_look]
  cases t.get? (canonical path) with
  | none => rfl
  | some e => cases e <;> rfl

theorem edit_deleteDirectory (t : Tree) (path : String) :
    t.edit (.deleteDirectory path) = t.commit (t.deleteDirectory path) := by
  unfold Editing.deleteDirectory deleteDirectory
  simp only
  split
  · rfl
  rw [edit_look]
  cases t.get? (canonical path) with
  | none => rfl
  | some e =>
    cases e with
    | file content => rfl
    | dir =>
      simp only [edit_look]
      split <;> rfl

end Tree

/-- A request as a program that edits the tree in place. -/
def Request.inPlace : Request → Editing Answer
  | has p => return .truth ((← get).has p)
  | list p => do Answer.names <$> ofExcept ((← get).list p)
  | read p => do Answer.text <$> ofExcept ((← get).read p)
  | write p c => (fun _ => .done) <$> Editing.write p c
  | createFile p c => (fun _ => .done) <$> Editing.create p (.file c)
  | createDirectory p => (fun _ => .done) <$> Editing.create p .dir
  | deleteFile p => (fun _ => .done) <$> Editing.deleteFile p
  | deleteDirectory p => (fun _ => .done) <$> Editing.deleteDirectory p

/-- **A request made in place is the request.** -/
theorem Request.inPlace_edit (r : Request) (t : Tree) : t.edit r.inPlace = r.ask t := by
  unfold Request.inPlace ask
  cases r with
  | has p => rfl
  | list p | read p =>
    simp only [Tree.edit_look, Tree.edit_map, Tree.edit_ofExcept]
    rfl
  | write p c => rw [Tree.edit_map, Tree.edit_write]; rfl
  | createFile p c | createDirectory p => rw [Tree.edit_map, Tree.edit_create]; rfl
  | deleteFile p => rw [Tree.edit_map, Tree.edit_deleteFile]; rfl
  | deleteDirectory p => rw [Tree.edit_map, Tree.edit_deleteDirectory]; rfl

theorem commit_failed {α : Type} {t t' : Tree} {result : Except Fault Tree} {g : Unit → α} {f : Fault}
    (h : (t.commit result).map (Except.map g) id = (.error f, t')) : t' = t := by
  cases result with
  | ok u => cases h
  | error e => exact (Prod.mk.inj h).2.symm

/-- A request that fails leaves the tree as it was. -/
theorem Request.ask_failed {r : Request} {t t' : Tree} {f : Fault} (h : r.ask t = (.error f, t')) :
    t' = t := by
  cases r with
  | has p | list p | read p => exact (Prod.mk.inj h).2.symm
  | write p c | createFile p c | createDirectory p | deleteFile p | deleteDirectory p =>
    exact commit_failed h

end TreeShell.Store
