import TreeShell.Proofs.Session.Moves
import TreeShell.Proofs.Session.Rename

/-!
# From inside and from outside

A file can be named from inside its directory, after a `cd`, or from outside, behind the path of the
directory. Both come to the same canonical path, unless the way to the directory goes up: `cd` takes
a `..` back, and the store keeps it.

* `Report`, `Same`: answers that say the same of one place in two spellings.
* `runBuiltin_same`: a command does the same at two spellings of one path.
* `execute_entered`: **entering a directory and naming a file there** is the same as naming it from
  outside.
-/

namespace TreeShell.Session

open Command (Builtin)
open Store (Fault Tree)
open TreeShell.Path WorkDir

variable {α : Type} {s s' : Session Tree} {path path' : String}

/-- The commands that put one request to the store, at the path of their argument. -/
def pathwise : List Builtin := [.ls, .cat, .mkdir, .rmdir, .rm, .touch]

/-- Answers about one place in two spellings: the same fault, or the same words, each followed by its
own spelling. -/
inductive Report (path path' : String) : Except Failure Outcome → Except Failure Outcome → Prop
  | fault (f : Fault) : Report path path' (.error (.store f)) (.error (.store f))
  | done (words : String) : Report path path' (.ok (.text (words ++ path))) (.ok (.text (words ++ path')))

/-- One command, carried out at two spellings of a path: the tree is the same, `ls` and `cat` give the
same, and a change is reported alike. -/
structure Same (op : Builtin) (path path' : String) (r r' : Reply (Session Tree) Outcome) : Prop where
  store : r.2.store = r'.2.store
  looked : op = .ls ∨ op = .cat → r.1 = r'.1
  changed : op ≠ .ls → op ≠ .cat → Report path path' r.1 r'.1

/-- What is only looked at gives the same text, from whatever session. -/
theorem look_same {op : Builtin} {f : String → Tree → Except Fault α} (words : α → String)
    (hop : op = .ls ∨ op = .cat) (hstore : s.store = s'.store)
    (hpath : f path s'.store = f path' s'.store) :
    Same op path path' (andThen (s.ask fun t => (f path t, t)) fun a s => s.output (words a))
      (andThen (s'.ask fun t => (f path' t, t)) fun a s => s.output (words a)) := by
  have hlooked : op ≠ .ls → ¬ op ≠ .cat := fun hls hcat => hop.elim hls hcat
  unfold ask
  simp only [hstore, hpath]
  cases f path' s'.store with
  | error f => exact ⟨rfl, fun _ => rfl, fun hls hcat => absurd hcat (hlooked hls)⟩
  | ok a => exact ⟨rfl, fun _ => rfl, fun hls hcat => absurd hcat (hlooked hls)⟩

/-- A change made at two spellings of one path is one change, reported in both spellings. -/
theorem change_same {op : Builtin} {f : String → Tree → Except Fault Tree} (words : String)
    (hop : ¬(op = .ls ∨ op = .cat)) (hstore : s.store = s'.store)
    (hpath : f path s'.store = f path' s'.store) :
    Same op path path' (s.change path words fun path t => t.commit (f path t))
      (s'.change path' words fun path t => t.commit (f path t)) := by
  unfold change
  simp only [ask_commit, hstore, hpath]
  cases f path' s'.store with
  | error e => exact ⟨hstore, fun h => absurd h hop, fun _ _ => .fault e⟩
  | ok t => exact ⟨rfl, fun h => absurd h hop, fun _ _ => .done words⟩

/-- **A command does the same at two spellings of one path**, from whatever directory. -/
theorem runBuiltin_same {op : Builtin} {arg arg' : String} (hop : op ∈ pathwise)
    (hstore : s.store = s'.store)
    (hpath : canonical (s.locate (some arg)) = canonical (s'.locate (some arg'))) (piped : String) :
    Same op (s.locate (some arg)) (s'.locate (some arg')) (s.runBuiltin op [arg] piped)
      (s'.runBuiltin op [arg'] piped) := by
  simp only [pathwise, List.mem_cons, List.not_mem_nil, or_false] at hop
  rcases hop with rfl | rfl | rfl | rfl | rfl | rfl
  · exact look_same (f := fun p t => t.list p) ("\n".intercalate ·) (.inl rfl) hstore
      (Store.list_spelling hpath)
  · exact look_same (f := fun p t => t.read p) id (.inr rfl) hstore (Store.read_spelling hpath)
  · exact change_same (f := fun p t => t.createDirectory p) "Directory created: " (by decide) hstore
      (Store.create_spelling hpath)
  · exact change_same (f := fun p t => t.deleteDirectory p) "Directory removed: " (by decide) hstore
      (Store.deleteDirectory_spelling hpath)
  · exact change_same (f := fun p t => t.deleteFile p) "File removed: " (by decide) hstore
      (Store.deleteFile_spelling hpath)
  · exact change_same (f := fun p t => t.createFile p "") "File created: " (by decide) hstore
      (Store.create_spelling hpath)

/-- The canonical image names every built-in command. -/
theorem name_mem_canonical (b : Builtin) : b.name ∈ Image.canonical.commands := by
  have hall : b ∈ Builtin.all := by cases b <;> decide
  have hname : b.name ∈ Builtin.all.map Builtin.name := List.mem_map_of_mem hall
  unfold Image.canonical Image.make
  exact hname

/-- **Entering a directory and naming a file there** is the same as naming it from outside.

In a session with all commands and in a tidy directory, let `cd` take a path without a `..`. Then a
command that works at one path does with `f` what it would have done with `d/f` before. For `cd` and
the store see the same below such a path, though they read `..` and backslashes in different ways. -/
theorem execute_entered {op : Builtin} {d f : String} (hall : s.commands = Image.canonical.commands)
    (hcwd : tidy s.cwd = s.cwd) (hd : d ≠ "") (hdown : Downward d) (hf : f ≠ "") (hrel : ¬ Absolute f)
    (hop : op ∈ pathwise) (piped : String) :
    (∀ way below, Downward way →
      canonical (tidy way ++ "/" ++ below) = canonical (way ++ "/" ++ below)) ∧
    ∃ here, s.execute "cd" [d] piped = (.ok (.text ""), here) ∧
      Same op (here.locate (some f)) (s.locate (some (d ++ "/" ++ f)))
        (here.execute op.name [f] piped) (s.execute op.name [d ++ "/" ++ f] piped) := by
  have hnamed : ∀ b : Builtin, b.name ∈ s.commands := fun b => hall ▸ name_mem_canonical b
  refine ⟨fun way below hway => canonical_below_tidy hway below, s.moved d, ?_, ?_⟩
  · exact execute_cd (hnamed .cd) d piped
  · have hhere : op.name ∈ (s.moved d).commands := hnamed op
    have hpath : canonical ((s.moved d).locate (some f)) = canonical (s.locate (some (d ++ "/" ++ f))) :=
      canonical_below_move hcwd hd hdown hf hrel
    have hstore : (s.moved d).store = s.store := rfl
    rw [execute_builtin op hhere, execute_builtin op (hnamed op)]
    exact runBuiltin_same hop hstore hpath piped

/-- A session with all commands, in a directory. Below it the store has a directory that goes by the
name of two dots. -/
def lodger : Session Tree where
  store := Tree.empty.plant "/d/x/../y/.." .dir
  terminal := .ofInput []
  cwd := "/d"
  commands := Image.canonical.commands
  prompt := defaultPrompt

/-- A file beside a directory that is entered along dots, empty parts and a `..` behind a backslash.
It is made at the same place of the store, and reported in two spellings. -/
theorem execute_entered_lodger :
    lodger.commands = Image.canonical.commands ∧ tidy lodger.cwd = lodger.cwd ∧
      Downward "./x\\..//y" ∧ ¬ Absolute "../f" ∧ Builtin.touch ∈ pathwise ∧
      (∃ here, lodger.execute "cd" ["./x\\..//y"] "" = (.ok (.text ""), here) ∧
        here.cwd = "/d/x\\../y" ∧
        let r := here.execute "touch" ["../f"] ""
        let r' := lodger.execute "touch" ["./x\\..//y/../f"] ""
        Same .touch (here.locate (some "../f")) (lodger.locate (some "./x\\..//y/../f")) r r' ∧
          r.1 = .ok (.text "File created: /d/x\\../y/../f") ∧
          r'.1 = .ok (.text "File created: /d/./x\\..//y/../f") ∧
          r.2.store = r'.2.store ∧
          lodger.store.get? "/d/x/../y/../f" = none ∧
          r.2.store.entries = [("/", .dir), ("/d", .dir), ("/d/x", .dir), ("/d/x/..", .dir),
            ("/d/x/../y", .dir), ("/d/x/../y/..", .dir), ("/d/x/../y/../f", .file "")]) ∧
      canonical (lodger.locate (some "./x\\..//y/../f")) = "/d/x/../y/../f" := by
  have hall : lodger.commands = Image.canonical.commands := rfl
  have hcwd : tidy lodger.cwd = lodger.cwd := by decide
  have hdown : Downward "./x\\..//y" := by
    unfold Downward
    decide
  have hrel : ¬ Absolute "../f" := by
    unfold Absolute
    decide
  have htouch : Builtin.touch ∈ pathwise := by decide
  obtain ⟨-, here, hcd, hsame⟩ :=
    execute_entered hall hcwd (by decide) hdown (by decide) hrel htouch ""
  have hmoved : lodger.execute "cd" ["./x\\..//y"] "" =
      (.ok (.text ""), lodger.moved "./x\\..//y") := rfl
  obtain rfl : lodger.moved "./x\\..//y" = here := (Prod.mk.inj (hmoved.symm.trans hcd)).2
  exact ⟨hall, hcwd, hdown, hrel, htouch,
    ⟨_, hcd, by decide, hsame, rfl, rfl, hsame.store, by decide, rfl⟩, by decide⟩

end TreeShell.Session
