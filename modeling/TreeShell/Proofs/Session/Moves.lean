import TreeShell.Proofs.Path.Moves
import TreeShell.Proofs.Session.Acts

/-!
# A chain of moves

Commands move a session by `cd` only, and each `cd` goes on from where the one before it has led.

* `execute_cd`: what `cd` does to a session that may run it.
* `cds`, `cds_cwd`: many of them, one after the other.
* `moves_compose`: **how moves compose.** A chain of them is one `cd` along all of their paths.
-/

namespace TreeShell.Session

open Store (Backend Tree)
open WorkDir

variable {σ : Type} [Backend σ] {s : Session σ}

/-- The session after a move. -/
def moved (s : Session σ) (target : String) : Session σ :=
  let cwd := move s.cwd (some target)
  { s with cwd }.say ("Current directory: " ++ cwd)

theorem execute_cd (h : "cd" ∈ s.commands) (target piped : String) :
    s.execute "cd" [target] piped = (.ok (.text ""), s.moved target) :=
  execute_builtin .cd h [target] piped

/-- The session after some `cd`, one after the other. -/
def cds (s : Session σ) (targets : List String) : Session σ :=
  targets.foldl (fun s target => (s.execute "cd" [target] "").2) s

theorem cds_cwd (h : "cd" ∈ s.commands) (targets : List String) :
    (s.cds targets).cwd = targets.foldl (fun cwd target => move cwd (some target)) s.cwd := by
  unfold cds
  induction targets generalizing s with
  | nil => rfl
  | cons target targets ih =>
    rw [List.foldl_cons, List.foldl_cons, execute_cd h]
    have hstill : "cd" ∈ (s.moved target).commands := h
    exact ih hstill

/-- **How moves compose.**

`cd` leads to the path of the names that are on the stack when all pieces of a path have been
scanned, and to make that tidy again changes nothing. Two moves are one move along both paths, if the
second path is relative. So a chain of `cd` ends where one `cd` along all of its paths does; and `..`
leads back from a directory entered by its name. -/
theorem moves_compose :
    (∀ p, ∃ stack, (∀ names, Scanned (pieces p) names ↔ names = stack) ∧
      tidy p = "/" ++ "/".intercalate stack ∧ tidy (tidy p) = tidy p) ∧
    (∀ cwd a b, a ≠ "" → b ≠ "" → ¬ Absolute b →
      move (move cwd (some a)) (some b) = move cwd (some (a ++ "/" ++ b))) ∧
    (∀ (s : Session σ) a bs, "cd" ∈ s.commands → a ≠ "" → (∀ b ∈ bs, b ≠ "" ∧ ¬ Absolute b) →
      (s.cds (a :: bs)).cwd = (s.execute "cd" ["/".intercalate (a :: bs)] "").2.cwd) ∧
    ∀ cwd d, tidy cwd = cwd → Plain d → move (move cwd (some d)) (some "..") = cwd := by
  refine ⟨fun p => ?_, fun cwd a b ha hb hrel => move_move ha hb hrel cwd, ?_,
    fun cwd d hcwd hd => move_back hcwd hd⟩
  · exact ⟨names p, fun _ => scanned_iff, rfl, tidy_tidy p⟩
  · intro s a bs hcd ha hbs
    have hchain := foldl_move ha hbs s.cwd
    rw [cds_cwd hcd, hchain, execute_cd hcd]
    rfl

/-- A session in the root directory that may move. -/
def rover : Session Tree where
  store := .empty
  terminal := .ofInput []
  cwd := "/"
  commands := ["cd"]
  prompt := defaultPrompt

/-- A chain of moves up and down, beyond the root and through a name with a backslash. -/
theorem moves_compose_rover :
    "cd" ∈ rover.commands ∧ (∀ b ∈ [".//e/", "../..", "f\\g"], b ≠ "" ∧ ¬ Absolute b) ∧
      (rover.cds ["/x/../d", ".//e/", "../..", "f\\g"]).cwd =
        (rover.execute "cd" ["/x/../d/.//e//../../f\\g"] "").2.cwd ∧
      (rover.cds ["/x/../d", ".//e/", "../..", "f\\g"]).cwd = "/f\\g" ∧
      move (move "/d" (some "...")) (some "..") = "/d" := by
  obtain ⟨-, -, hchain, hback⟩ := moves_compose (σ := Tree)
  have hbs : ∀ b ∈ [".//e/", "../..", "f\\g"], b ≠ "" ∧ ¬ Absolute b := by
    unfold Absolute
    decide
  have hdots : Plain "..." := ⟨by decide, by decide, by decide, by decide⟩
  have hcd : "cd" ∈ rover.commands := List.mem_cons_self
  refine ⟨hcd, hbs, hchain rover _ _ hcd (by decide) hbs, rfl, hback "/d" "..." (by decide) hdots⟩

end TreeShell.Session
