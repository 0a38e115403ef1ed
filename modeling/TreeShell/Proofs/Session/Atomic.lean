import TreeShell.Proofs.Session.Acts
import TreeShell.Proofs.Session.Rename
import TreeShell.Proofs.Store.InPlace

/-!
# A failure leaves no trace

A command that fails has done nothing, though `cp` and `mv` take several requests and a write makes
several entries.

* `Atomic`: an answer that is no failure unless the session is as it was.
* `Atomic.andThen`: a step that may fail, followed by what may fail only without a trace.
* `rename_atomic`: `mv` writes before it deletes, but where it has written it can delete.
* `failure_atomic`: **a request that fails has edited nothing, and neither has a command.**
-/

namespace TreeShell.Session

open Command (Builtin)
open Store (Fault Request Tree TreeOK)

variable {σ α β : Type} {s : Session σ}

/-- An answer that leaves the session `s` as it was if it is a failure. -/
def Atomic (s : Session σ) (r : Reply (Session σ) α) : Prop := ∀ f s', r = (.error f, s') → s' = s

theorem Atomic.ok (s s' : Session σ) (a : α) : Atomic s (.ok a, s') := by
  intro f _ h
  cases h

/-- Any answer that comes with the session as it was. -/
theorem Atomic.same (s : Session σ) (answer : Except Failure α) : Atomic s (answer, s) := by
  intro f s' h
  exact (Prod.mk.inj h).2.symm

theorem Atomic.andThen {r : Reply (Session σ) α} {next : α → Session σ → Reply (Session σ) β}
    (hr : Atomic s r) (hnext : ∀ a s', r = (.ok a, s') → Atomic s (next a s')) :
    Atomic s (andThen r next) := by
  obtain ⟨answer, s'⟩ := r
  cases answer with
  | ok a => exact hnext a s' rfl
  | error f =>
    obtain rfl := hr f s' rfl
    exact .same s' _

/-- A step that may fail, and output if it does not. -/
theorem Atomic.report {r : Reply (Session σ) α} (hr : Atomic s r) (text : α → String) :
    Atomic s (Session.andThen r fun a s' => s'.output (text a)) :=
  hr.andThen fun _ s' _ => .ok s s' _

theorem grep_atomic (s : Session σ) (pattern : Option String) (piped : String) :
    Atomic s (s.grep pattern piped) := by
  rcases grep_cases s pattern piped with ⟨text, h⟩ | ⟨warning, h⟩
  · rw [h]
    exact .ok s s _
  · rw [h]
    exact .ok s (s.warn warning) _

theorem help_atomic (s : Session σ) (name : Option String) : Atomic s (s.help name) := by
  obtain ⟨text, h⟩ := help_output s name
  rw [h]
  exact .ok s s _

/-! ## On a tree -/

variable {s : Session Tree}

theorem look_atomic (s : Session Tree) (look : Tree → Except Fault α) :
    Atomic s (s.ask fun t => (look t, t)) := .same s _

theorem commit_atomic (s : Session Tree) (f : Tree → Except Fault Tree) :
    Atomic s (s.ask fun t => t.commit (f t)) := by
  rw [ask_commit]
  cases f s.store with
  | ok t => exact .ok _ _ _
  | error e => exact .same s _

theorem change_atomic (s : Session Tree) (path report : String) (f : String → Tree → Except Fault Tree) :
    Atomic s (s.change path report fun path t => t.commit (f path t)) :=
  .report (commit_atomic s (f path)) _

theorem copy_atomic (s : Session Tree) (source target : String) :
    Atomic s (s.copy source target) := by
  refine (look_atomic s fun t => t.read source).andThen fun content s' h => ?_
  -- what has been read has changed nothing, so the write is made in `s`
  obtain rfl : s = s' := (Prod.mk.inj h).2
  exact .report (commit_atomic s fun t => t.write target content) _

/-- The last of the three requests of `mv` never is the one to fail: a file that has been read is
still there after another one has been written, wherever that is. -/
theorem rename_atomic (ht : TreeOK s.store) (source target : String) :
    Atomic s (s.rename source target) := by
  rcases rename_cases ht source target with ⟨f, hf⟩ | ⟨c, -, -, -, hdone⟩
  · rw [hf]
    exact .same s _
  · rw [hdone]
    exact .ok _ _ _

theorem runBuiltin_atomic (ht : TreeOK s.store) (b : Builtin) (args : List String) (piped : String) :
    Atomic s (s.runBuiltin b args piped) := by
  cases b with
  | echo | pwd | cd | clear | exit => exact .ok _ _ _
  | grep => exact grep_atomic s _ _
  | help => exact help_atomic s _
  | cat => exact .report (look_atomic s fun t => t.read _) _
  | ls => exact .report (look_atomic s fun t => t.list _) _
  | mkdir => exact change_atomic s _ _ fun path t => t.createDirectory path
  | rmdir => exact change_atomic s _ _ fun path t => t.deleteDirectory path
  | rm => exact change_atomic s _ _ fun path t => t.deleteFile path
  | touch => exact change_atomic s _ _ fun path t => t.createFile path ""
  | cp => exact copy_atomic s _ _
  | mv => exact rename_atomic ht _ _

theorem execute_atomic (ht : TreeOK s.store) (name : String) (args : List String) (piped : String) :
    Atomic s (s.execute name args piped) := by
  obtain ⟨b, -, -, hrun⟩ | hrun := execute_cases s name args piped
  · rw [hrun]
    exact runBuiltin_atomic ht b args piped
  · rw [hrun]
    exact .ok _ _ _

/-- **A failure leaves no trace.** A request that fails has edited nothing, even made in place; and a
command that fails leaves the tree, the directory and the record as they were. -/
theorem failure_atomic (ht : TreeOK s.store) :
    (∀ (r : Request) (f : Fault) (t : Tree), s.store.edit r.inPlace = (.error f, t) →
      t = s.store ∧ r.ask s.store = (.error f, s.store)) ∧
    ∀ (name : String) (args : List String) (piped : String) (f : Failure) (s' : Session Tree),
      s.execute name args piped = (.error f, s') → s' = s := by
  refine ⟨fun r f t h => ?_, execute_atomic ht⟩
  rw [Request.inPlace_edit] at h
  obtain rfl := Request.ask_failed h
  exact ⟨rfl, h⟩

/-- A session in `/d`, where there is one file, that may move it. -/
def mover : Session Tree := { shelf with commands := ["mv"] }

/-- A write that finds a file above directories that are missing, and a move to such a place: nothing
has been made. -/
theorem failure_atomic_mover :
    TreeOK mover.store ∧
      mover.store.edit (Request.write "d/a/b/c" "x").inPlace =
        (.error (.notDirectory "/d/a"), mover.store) ∧
      mover.execute "mv" ["a", "a/b/c"] "" = (.error (.store (.notDirectory "/d/a")), mover) ∧
      mover.store.entries = [("/", .dir), ("/d", .dir), ("/d/a", .file "payload")] := by
  have ht : TreeOK mover.store := Store.ask_ok Store.empty_ok (.write "/d/a" "payload")
  obtain ⟨hrequest, hcommand⟩ := failure_atomic ht
  have hwrite : mover.store.edit (Request.write "d/a/b/c" "x").inPlace =
      (.error (.notDirectory "/d/a"), ((Request.write "d/a/b/c" "x").ask mover.store).2) := by
    rw [Request.inPlace_edit]
    rfl
  have hmove : mover.execute "mv" ["a", "a/b/c"] "" =
    (.error (.store (.notDirectory "/d/a")), (mover.execute "mv" ["a", "a/b/c"] "").2) := rfl
  refine ⟨ht, ?_, ?_, rfl⟩
  · rw [(hrequest _ _ _ hwrite).1] at hwrite
    exact hwrite
  · rw [hcommand _ _ _ _ _ hmove] at hmove
    exact hmove

end TreeShell.Session
