import TreeShell.Proofs.Store.Change
import TreeShell.Session.Execute

/-!
# Moving a file

`mv` reads its source, writes what it read to its target, and deletes its source.

* `rename_cases`: it fails and nothing has happened, or it has planted the file at the target and
  taken the source away.
* `mv_result`: **what a successful `mv` leaves.** Where source and target are spellings of one path,
  what was planted is what is taken away.
-/

namespace TreeShell.Session

open TreeShell.Path Store

variable {s s' : Session Tree} {source target : String} {args : List String} {piped : String}
  {out : Outcome}

/-- The session with another tree. -/
def withTree (s : Session Tree) (t : Tree) : Session Tree := { s with store := t }

theorem ask_read : s.ask (Backend.read source) = ((s.store.read source).mapError .store, s) := rfl

/-- A change of the tree, asked for by a session. -/
theorem ask_commit (f : Tree → Except Fault Tree) :
    s.ask (fun t => t.commit (f t)) =
      match f s.store with
      | .ok t => (.ok (), s.withTree t)
      | .error e => (.error (.store e), s) := by
  unfold ask
  simp only
  cases f s.store <;> rfl

/-- A file that was planted over no directory is still there to be deleted. -/
theorem file_of_plant {t : Tree} {c q k : String} (ho : t.Open q) (hk : t.get? k = some (.file c)) :
    ∃ c', (t.plant q (.file c)).get? k = some (.file c') := by
  rw [get?_plant]
  split
  · exact ⟨c, rfl⟩
  split
  · rename_i h; exact absurd hk (ho k h c)
  · exact ⟨c, hk⟩

/-- **A rename happens as a whole.** Either it fails and nothing has changed, or the source was a
file, and it has been planted at the target before the source was taken away. -/
theorem rename_cases (ht : TreeOK s.store) (source target : String) :
    (∃ f, s.rename source target = (.error f, s)) ∨
      ∃ c, s.store.get? (canonical source) = some (.file c) ∧
        s.store.get? (canonical target) ≠ some .dir ∧ s.store.Open (canonical target) ∧
        s.rename source target = (.ok (.text ("Moved from " ++ source ++ " to " ++ target)),
          s.withTree ((s.store.plant (canonical target) (.file c)).unbind (canonical source))) := by
  unfold rename
  rw [ask_read]
  cases hr : s.store.read source with
  | error f => exact Or.inl ⟨_, rfl⟩
  | ok c =>
    have hsrc := read_ok.1 hr
    -- the file at the source survives the write, so its deletion cannot fail
    have hw : s.ask (Backend.write target c) = _ := ask_commit fun t => t.write target c
    have hok : (Except.ok c : Except Fault String).mapError Failure.store = .ok c := rfl
    simp only [andThen, hok, hw]
    cases hwr : s.store.write target c with
    | error f => exact Or.inl ⟨_, rfl⟩
    | ok t =>
      obtain ⟨hn, ho, rfl⟩ := (write_ok ht).1 hwr
      have hdel : (s.store.plant (canonical target) (.file c)).deleteFile source =
          .ok ((s.store.plant (canonical target) (.file c)).unbind (canonical source)) :=
        deleteFile_ok.2 ⟨file_of_plant ho hsrc, rfl⟩
      have hd : (s.withTree (s.store.plant (canonical target) (.file c))).ask
          (Backend.deleteFile source) = _ := ask_commit fun t => t.deleteFile source
      refine Or.inr ⟨c, hsrc, hn, ho, ?_⟩
      simp only [hd]
      unfold withTree
      simp only [hdel]
      rfl

/-- **What a successful `mv` leaves.** The source is gone, and the target holds what the source
held, unless both are spellings of one path: then the file is gone altogether. Nothing else has
changed, but for directories that were missing on the way to the target. -/
theorem mv_result (ht : TreeOK s.store) (h : s.runBuiltin .mv args piped = (.ok out, s')) :
    ∃ c, s.store.read (s.locate args[0]?) = .ok c ∧
      (s'.store.read (s.locate args[1]?) =
        if canonical (s.locate args[0]?) = canonical (s.locate args[1]?) then
          .error (.notFound (canonical (s.locate args[1]?)))
        else .ok c) ∧
      s'.store.has (s.locate args[0]?) = false ∧
      ∀ key, key ≠ canonical (s.locate args[0]?) → key ≠ canonical (s.locate args[1]?) →
        s'.store.get? key =
          if s.store.get? key = none ∧ key ∈ ancestors (canonical (s.locate args[1]?)) then some .dir
          else s.store.get? key := by
  have h : s.rename (s.locate args[0]?) (s.locate args[1]?) = (.ok out, s') := h
  generalize s.locate args[0]? = source at h ⊢
  generalize s.locate args[1]? = target at h ⊢
  rcases rename_cases ht source target with ⟨f, hf⟩ | ⟨c, hsrc, hn, ho, hr⟩
  · rw [hf] at h; cases h
  rw [hr] at h
  obtain ⟨-, rfl⟩ := Prod.mk.inj h
  have hstore : ∀ t, (s.withTree t).store = t := fun _ => rfl
  rw [hstore]
  refine ⟨c, read_ok.2 hsrc, ?_, ?_, ?_⟩
  · split
    · rename_i hst
      unfold Tree.read
      simp only
      rw [Tree.get?_unbind, if_pos hst]
    · rename_i hst
      rw [read_ok, Tree.get?_unbind, if_neg hst, get?_plant, if_pos rfl]
  · unfold Tree.has; rw [Tree.get?_unbind, if_pos rfl]; rfl
  · intro key hks hkt
    rw [Tree.get?_unbind, if_neg (Ne.symm hks), get?_plant, if_neg hkt]
    by_cases ha : key ∈ ancestors (canonical target)
    · rw [if_pos ha]
      -- what stands on the way to the target is a directory already
      cases hk : s.store.get? key with
      | none => rw [if_pos ⟨rfl, ha⟩]
      | some e =>
        rw [if_neg (by simp)]
        cases e with
        | dir => rfl
        | file x => exact absurd hk (ho key ha x)
    · rw [if_neg ha, if_neg fun hc => ha hc.2]

/-- A session in `/d`, where there is one file. -/
def shelf : Session Tree where
  store := ((Request.write "/d/a" "payload").ask Tree.empty).2
  terminal := .ofInput []
  cwd := "/d"
  commands := []
  prompt := defaultPrompt

/-- Moved to another directory, the file is there afterwards. -/
theorem mv_result_shelf : ∃ s', TreeOK shelf.store ∧
    shelf.runBuiltin .mv ["a", "//x\\y"] "" = (.ok (.text "Moved from /d/a to //x\\y"), s') ∧
    (∃ c, shelf.store.read "/d/a" = .ok c ∧ s'.store.read "/x/y" = .ok c) ∧
    s'.store.has "/d/a" = false ∧ s'.store.get? "/x" = some .dir ∧ s'.store.get? "/d" = some .dir := by
  have ht : TreeOK shelf.store := ask_ok empty_ok _
  have h : shelf.runBuiltin .mv ["a", "//x\\y"] "" =
    (.ok (.text "Moved from /d/a to //x\\y"), (shelf.runBuiltin .mv ["a", "//x\\y"] "").2) := rfl
  refine ⟨_, ht, h, ?_⟩
  obtain ⟨c, hr, hw, hs, hk⟩ := mv_result ht h
  exact ⟨⟨c, hr, hw⟩, hs, hk "/x" (by decide) (by decide), hk "/d" (by decide) (by decide)⟩

/-- **Moved onto itself, the file is lost**, though the command reports success. -/
theorem mv_onto_itself : ∃ s', TreeOK shelf.store ∧
    shelf.runBuiltin .mv ["a", "/d/./a"] "" = (.ok (.text "Moved from /d/a to /d/./a"), s') ∧
    canonical "/d/a" = canonical "/d/./a" ∧ shelf.store.read "/d/a" = .ok "payload" ∧
    s'.store.read "/d/./a" = .error (.notFound "/d/a") ∧
    s'.store.entries = [("/", .dir), ("/d", .dir)] :=
  ⟨_, ask_ok empty_ok _, rfl, rfl, rfl, rfl, rfl⟩

end TreeShell.Session
