import TreeShell.Proofs.Store.Change

/-!
# The effect of a write

A write looks for missing directories from one parent to the next, and stops at the first entry that
is there. That entry decides for all that stands above it.

* `Climb`: the search, parent by parent. `climb_iff`: it ends for every path, in one way.
* `write_effect`: **a write has exactly the effect it should have**, or the fault that stands in its
  way.
-/

namespace TreeShell.Store

open TreeShell.Path

/-- The search for missing directories, from where it stands to its end: the missing ones nearest
first, or a file in the way. -/
inductive Climb (t : Tree) : Option String → Except Fault (List String) → Prop
  /-- The root has been missing, too. -/
  | top : Climb t none (.ok [])
  | found {d : String} (h : t.get? d = some .dir) : Climb t (some d) (.ok [])
  | barred {d s : String} (h : t.get? d = some (.file s)) :
      Climb t (some d) (.error (.notDirectory d))
  | up {d : String} {result : Except Fault (List String)} (h : t.get? d = none)
      (next : Climb t (parent? d) result) : Climb t (some d) (result.map (d :: ·))

variable {t t' : Tree} {p d c : String} {place : Option String}
  {result result' : Except Fault (List String)}

theorem Climb.unique (h : Climb t place result) (h' : Climb t place result') : result = result' := by
  induction h generalizing result' with
  | top =>
    cases h'
    rfl
  | found h =>
    cases h' with
    | found => rfl
    | barred hf => rw [h] at hf; cases hf
    | up hn => rw [h] at hn; cases hn
  | barred h =>
    cases h' with
    | found hd => rw [h] at hd; cases hd
    | barred => rfl
    | up hn => rw [h] at hn; cases hn
  | up h _ ih =>
    cases h' with
    | found hd => rw [h] at hd; cases hd
    | barred hf => rw [h] at hf; cases hf
    | up _ next => rw [ih next]

/-- **The search ends for every path.** The induction is on how far the path is from the root: every
parent is nearer to it. -/
theorem climb_missing (t : Tree) (p : String) : Climb t (parent? p) (t.missing (ancestors p)) := by
  generalize hn : rank p = n
  induction n using Nat.strongRecOn generalizing p with
  | ind n ih =>
    subst hn
    cases hp : parent? p with
    | none =>
      have ha : ancestors p = [] := by rw [ancestors_eq, hp]
      rw [ha]
      exact .top
    | some d =>
      rw [ancestors_of_parent? hp, Tree.missing]
      have hnext : Climb t (parent? d) (t.missing (ancestors d)) := ih _ (rank_parent? hp) d rfl
      cases hd : t.get? d with
      | none => exact .up hd hnext
      | some e =>
        cases e with
        | dir => exact .found hd
        | file s => exact .barred hd

/-- The search ends in one way, with the missing ancestors of the path. -/
theorem climb_iff : Climb t (parent? p) result ↔ result = t.missing (ancestors p) := by
  constructor
  · intro h
    exact h.unique (climb_missing t p)
  · rintro rfl
    exact climb_missing t p

theorem open_iff_above : t.Open (canonical p) ↔ ∀ d, Above d p → ∀ s, t.get? d ≠ some (.file s) :=
  forall_congr' fun _ => imp_congr_left above_iff.symm

/-- **A write has exactly the effect it should have.**

The search for missing directories ends for every path. The write succeeds exactly if there is no
directory at its path and no file above. Then the file is there, under every spelling of the path;
what was missing above it is a directory; and nothing else has changed. If it fails, it names the
directory at its path, or the one file that stands above. -/
theorem write_effect (ht : TreeOK t) (p c : String) :
    (∀ place result, Climb t (parent? place) result ↔ result = t.missing (ancestors place)) ∧
    ((∃ t', t.write p c = .ok t') ↔
      t.get? (canonical p) ≠ some .dir ∧ ∀ d, Above d p → ∀ s, t.get? d ≠ some (.file s)) ∧
    (∀ t', t.write p c = .ok t' →
      t'.get? (canonical p) = some (.file c) ∧
      (∀ d, Above d p → t.get? d = none → t'.get? d = some .dir) ∧
      (∀ key, key ≠ canonical p → ¬ (Above key p ∧ t.get? key = none) → t'.get? key = t.get? key) ∧
      ∀ p', canonical p' = canonical p → t'.read p' = .ok c) ∧
    (t.get? (canonical p) = some .dir → t.write p c = .error (.isDirectory (canonical p))) ∧
    ∀ d s, Above d p → t.get? d = some (.file s) →
      t.write p c = .error (.notDirectory d) ∧
      ∀ d' s', Above d' p → t.get? d' = some (.file s') → d' = d := by
  have hblocked : ∀ d s, Above d p → t.get? d = some (.file s) →
      t.write p c = .error (.notDirectory d) := fun d s hd hs => write_of_file ht (above_iff.1 hd) hs
  refine ⟨fun _ _ => climb_iff, ?_, fun t' h => ?_, write_of_dir, fun d s hd hs => ?_⟩
  · rw [← open_iff_above]
    constructor
    · rintro ⟨t', h⟩
      obtain ⟨hn, ho, -⟩ := (write_ok ht).1 h
      exact ⟨hn, ho⟩
    · rintro ⟨hn, ho⟩
      exact ⟨_, write_of_open ht hn ho⟩
  · obtain ⟨-, ho, rfl⟩ := (write_ok ht).1 h
    have hfile := get?_write h
    refine ⟨hfile, fun d hd hn => ?_, fun key hk hold => ?_, fun p' hp' => ?_⟩
    · have hne : d ≠ canonical p := by
        rintro rfl
        exact self_notMem_ancestors _ (above_iff.1 hd)
      rw [ho.get?_plant, if_neg hne, if_pos ⟨hn, above_iff.1 hd⟩]
    · rw [ho.get?_plant, if_neg hk, if_neg fun hnew => hold ⟨above_iff.2 hnew.2, hnew.1⟩]
    · rw [read_ok, hp']
      exact hfile
  · refine ⟨hblocked d s hd hs, fun d' s' hd' hs' => ?_⟩
    -- a write has one fault, so there is one file above
    have hfault := hblocked d' s' hd' hs'
    rw [hblocked d s hd hs] at hfault
    exact (Fault.notDirectory.inj (Except.error.inj hfault)).symm

/-- A tree with one file in one directory. -/
def hutch : Tree := ((Request.write "/d/a" "old").ask Tree.empty).2

/-- Written into a directory that is missing, in another spelling, the file is there; written below
the file that is there already, it is refused. -/
theorem write_effect_hutch :
    TreeOK hutch ∧
      (∃ t', hutch.write "d\\x/./y" "new" = .ok t' ∧ t'.get? "/d/x/y" = some (.file "new") ∧
        t'.get? "/d/x" = some .dir ∧ t'.get? "/d/a" = some (.file "old") ∧
        t'.read "/d//x/y" = .ok "new") ∧
      hutch.write "d/a/x/y" "new" = .error (.notDirectory "/d/a") := by
  have ht : TreeOK hutch := ask_ok empty_ok _
  obtain ⟨-, -, hwritten, -⟩ := write_effect ht "d\\x/./y" "new"
  obtain ⟨-, -, -, -, hblocked⟩ := write_effect ht "d/a/x/y" "new"
  obtain ⟨hfile, hdirs, hrest, hread⟩ := hwritten _ rfl
  refine ⟨ht, ⟨_, rfl, hfile, ?_, ?_, ?_⟩, ?_⟩
  · exact hdirs "/d/x" ⟨["d", "x"], by decide, by decide, by decide⟩ rfl
  · exact hrest "/d/a" (by decide) fun hnew => by cases hnew.2
  · exact hread "/d//x/y" (by decide)
  · exact (hblocked "/d/a" "old" ⟨["d", "a"], by decide, by decide, by decide⟩ rfl).1

end TreeShell.Store
