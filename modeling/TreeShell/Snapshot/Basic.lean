import TreeShell.Store.Tree

/-!
# Snapshots

A tree as it is kept between runs: entries by path, in any spelling.

* `Snapshot.ofTree` takes a snapshot, `Snapshot.restore` makes a tree of one.
* Of two spellings of one path the later in code point order wins.
* A snapshot is refused if its root is a file, or if an entry has no directory to lie in.
-/

namespace TreeShell

open Store (Entry Fault Tree)

/-- A tree as it is kept. -/
@[ext]
structure Snapshot where
  /-- The number of the format. -/
  format : Nat
  /-- The entries by path, in whatever spelling. -/
  entries : Std.ExtTreeMap String Entry
deriving DecidableEq

namespace Snapshot

/-- The number of the format that is written. -/
def currentFormat : Nat := 1

/-- The snapshot of a tree. -/
def ofTree (t : Tree) : Snapshot :=
  { format := currentFormat, entries := t.map }

/-- The number of entries. -/
def size (s : Snapshot) : Nat :=
  s.entries.size

/-- The tree with the given entries added under their canonical paths. -/
def gather (t : Tree) : List (String × Entry) → Except Fault Tree
  | [] => .ok t
  | (path, e) :: rest =>
    let q := Path.canonical path
    if q = "/" then
      if e = .dir then gather t rest
      else .error (.invalidArgument "snapshot root is not a directory")
    else gather (t.bind q e) rest

/-- What is wrong with the place of an entry, if anything. -/
def misplaced? (t : Tree) (key : String) : Option Fault :=
  match Path.parent? key with
  | none => none
  | some d =>
    match t.get? d with
    | some .dir => none
    | some (.file _) => some (.notDirectory d)
    | none => some (.notFound d)

/-- The tree, unless one of the paths is misplaced in it. -/
def settle (t : Tree) (keys : List String) : Except Fault Tree :=
  match keys.findSome? (misplaced? t) with
  | some f => .error f
  | none => .ok t

/-- The tree of a snapshot. Of several misplaced entries the first in code point order is named. -/
def restore (s : Snapshot) : Except Fault Tree :=
  match gather .empty s.entries.toList with
  | .error f => .error f
  | .ok t => settle t t.keys

end Snapshot

end TreeShell
