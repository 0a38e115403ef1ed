import Std.Data.ExtTreeMap
import TreeShell.Path
import TreeShell.Store.Fault

/-!
# The file tree

Files and directories as one map from canonical paths to entries, sorted by path. Every operation
takes a path in any spelling.

* A new file or directory needs its parent; `write` makes the missing directories itself.
* A failing operation gives no tree, so it cannot have changed one.
* `get?` is the view of a tree: two trees with the same view are equal (`ext_get?`), and each
  change has a lemma that says what it does to the view.
-/

namespace TreeShell.Store

/-- What a path can lead to. -/
inductive Entry
  | file (content : String)
  | dir
deriving DecidableEq, Repr

/-- Files and directories by canonical path. -/
@[ext]
structure Tree where
  map : Std.ExtTreeMap String Entry
deriving DecidableEq

namespace Tree

/-- The tree with nothing but its root. -/
def empty : Tree :=
  ⟨(∅ : Std.ExtTreeMap String Entry).insert "/" .dir⟩

/-- The entry kept under exactly that key. -/
def get? (t : Tree) (key : String) : Option Entry :=
  t.map[key]?

/-- The tree with `key` bound to `e`. -/
def bind (t : Tree) (key : String) (e : Entry) : Tree :=
  ⟨t.map.insert key e⟩

/-- The tree without `key`. -/
def unbind (t : Tree) (key : String) : Tree :=
  ⟨t.map.erase key⟩

theorem ext_get? {t u : Tree} (h : ∀ key, t.get? key = u.get? key) : t = u := by
  ext1
  exact Std.ExtTreeMap.ext_getElem? h

@[simp] theorem get?_empty (key : String) :
    empty.get? key = if "/" = key then some .dir else none := by
  simp [empty, get?, Std.ExtTreeMap.getElem?_insert]

@[simp] theorem get?_bind (t : Tree) (k key : String) (e : Entry) :
    (t.bind k e).get? key = if k = key then some e else t.get? key := by
  simp [bind, get?, Std.ExtTreeMap.getElem?_insert]

@[simp] theorem get?_unbind (t : Tree) (k key : String) :
    (t.unbind k).get? key = if k = key then none else t.get? key := by
  simp [unbind, get?, Std.ExtTreeMap.getElem?_erase]

/-- All entries, by path in code point order. -/
def entries (t : Tree) : List (String × Entry) :=
  t.map.toList

/-- All paths, in code point order. -/
def keys (t : Tree) : List String :=
  t.map.keys

theorem mem_entries {t : Tree} {key : String} {e : Entry} :
    (key, e) ∈ t.entries ↔ t.get? key = some e := by
  simp [entries, get?, Std.ExtTreeMap.mem_toList_iff_getElem?_eq_some]

theorem mem_keys {t : Tree} {key : String} : key ∈ t.keys ↔ (t.get? key).isSome := by
  simp [keys, get?, Std.ExtTreeMap.mem_keys]

/-- Whether a path leads to anything. -/
def has (t : Tree) (path : String) : Bool :=
  (t.get? (Path.canonical path)).isSome

/-- The names in a directory, in code point order. -/
def list (t : Tree) (path : String) : Except Fault (List String) :=
  let q := Path.canonical path
  match t.get? q with
  | none => .error (.notFound q)
  | some (.file _) => .error (.notDirectory q)
  | some .dir => .ok (t.keys.filterMap (Path.childName? q))

/-- The content of a file. -/
def read (t : Tree) (path : String) : Except Fault String :=
  let q := Path.canonical path
  match t.get? q with
  | some (.file content) => .ok content
  | some .dir => .error (.isDirectory q)
  | none => .error (.notFound q)

/-- Of the ancestors of a path, nearest first, those that have to be made. The first directory ends
the search; a file in the way refuses it. -/
def missing (t : Tree) : List String → Except Fault (List String)
  | [] => .ok []
  | d :: ds =>
    match t.get? d with
    | some .dir => .ok []
    | some (.file _) => .error (.notDirectory d)
    | none => (t.missing ds).map (d :: ·)

/-- The tree with each of the paths bound to a directory. -/
def addDirs (t : Tree) (dirs : List String) : Tree :=
  dirs.foldr (fun d t => t.bind d .dir) t

/-- Creates or overwrites a file, and the directories it needs. -/
def write (t : Tree) (path content : String) : Except Fault Tree :=
  let q := Path.canonical path
  if t.get? q = some .dir then .error (.isDirectory q)
  else
    match t.missing (Path.ancestors q) with
    | .error f => .error f
    | .ok dirs => .ok ((t.addDirs dirs).bind q (.file content))

/-- Adds a new entry to an existing directory. -/
def create (t : Tree) (path : String) (e : Entry) : Except Fault Tree :=
  let q := Path.canonical path
  if (t.get? q).isSome then .error (.alreadyExists q)
  else
    match Path.parent? q with
    | none => .error (.alreadyExists q)
    | some d =>
      match t.get? d with
      | some .dir => .ok (t.bind q e)
      | some (.file _) => .error (.notDirectory d)
      | none => .error (.notFound d)

/-- Adds a new file to an existing directory. -/
def createFile (t : Tree) (path content : String) : Except Fault Tree :=
  t.create path (.file content)

/-- Adds a new directory to an existing one. -/
def createDirectory (t : Tree) (path : String) : Except Fault Tree :=
  t.create path .dir

/-- Takes a file away. -/
def deleteFile (t : Tree) (path : String) : Except Fault Tree :=
  let q := Path.canonical path
  match t.get? q with
  | some (.file _) => .ok (t.unbind q)
  | some .dir => .error (.isDirectory q)
  | none => .error (.notFound q)

/-- Whether anything lies below the directory `q`. -/
def occupied (t : Tree) (q : String) : Bool :=
  t.keys.any fun k => (Path.below q).isPrefixOf k.toList

/-- Takes an empty directory away, but never the root. -/
def deleteDirectory (t : Tree) (path : String) : Except Fault Tree :=
  let q := Path.canonical path
  if q = "/" then .error (.permissionDenied "cannot remove root")
  else
    match t.get? q with
    | none => .error (.notFound q)
    | some (.file _) => .error (.notDirectory q)
    | some .dir => if t.occupied q then .error (.directoryNotEmpty q) else .ok (t.unbind q)

end Tree

end TreeShell.Store
