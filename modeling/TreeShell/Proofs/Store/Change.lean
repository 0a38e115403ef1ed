import TreeShell.Proofs.Path.Ancestors
import TreeShell.Store.Backend

/-!
# What the changes of a tree do

`TreeOK` is the invariant of the file tree: there is a root, every key is canonical, and every entry
but the root lies in a directory.

* `TreeOK.above`: every ancestor of an entry is a directory.
* `write_of_open`, `write_of_file`, `write_of_dir`: when a file can be written, what that does to the
  tree (`plant`), and which fault stops it.
* `create_ok`, `deleteFile_ok`, `deleteDirectory_ok`: the same for the other changes.
* `TreeOK.plant`, `TreeOK.unbind`: the two ways in which a tree changes keep the invariant.
-/

namespace TreeShell.Store

open TreeShell.Path

/-- **The invariant of the file tree.** -/
structure TreeOK (t : Tree) : Prop where
  root : t.get? "/" = some .dir
  canon : ∀ key, (t.get? key).isSome → canonical key = key
  parent : ∀ key d, (t.get? key).isSome → parent? key = some d → t.get? d = some .dir

/-- The path in a request. -/
def Request.path : Request → String
  | has p => p
  | list p => p
  | read p => p
  | write p _ => p
  | createFile p _ => p
  | createDirectory p => p
  | deleteFile p => p
  | deleteDirectory p => p

variable {t t' : Tree} {key d p q c : String} {e : Entry}

theorem empty_ok : TreeOK Tree.empty := by
  have hk : ∀ key, (Tree.empty.get? key).isSome → key = "/" := by
    intro key hk
    rw [Tree.get?_empty] at hk
    split at hk
    · rename_i h; exact h.symm
    · simp at hk
  refine ⟨by simp, ?_, ?_⟩
  · intro key h; rw [hk key h]; exact canonical_root
  · intro key d h hp; rw [hk key h, parent?_root] at hp; cases hp

/-- The root is a directory, so what is none is not the root. -/
theorem TreeOK.ne_root (ht : TreeOK t) (h : t.get? q ≠ some .dir) : q ≠ "/" := by
  rintro rfl
  exact h ht.root

/-- **Above an entry there are only directories.** -/
theorem TreeOK.above (ht : TreeOK t) (hk : (t.get? key).isSome) (hd : d ∈ ancestors key) :
    t.get? d = some .dir := by
  generalize hl : ancestors key = l at hd
  -- one step up the chain of parents at a time
  induction l generalizing key with
  | nil => cases hd
  | cons x l ih =>
    obtain ⟨hp, hx⟩ := parent?_of_ancestors hl
    have hxd := ht.parent key x hk hp
    rcases List.mem_cons.1 hd with rfl | hd
    · exact hxd
    · exact ih (Option.isSome_of_eq_some hxd) hx hd

/-- Nothing lies below a file. -/
theorem TreeOK.below_file (ht : TreeOK t) {s : String} (hf : t.get? d = some (.file s))
    (hk : (t.get? key).isSome) : d ∉ ancestors key := by
  intro h
  have := ht.above hk h
  rw [hf] at this; cases this

/-- No file stands on the way to a path. -/
def Tree.Open (t : Tree) (q : String) : Prop := ∀ d ∈ ancestors q, ∀ s, t.get? d ≠ some (.file s)

theorem empty_open (q : String) : Tree.empty.Open q := by
  intro d _ s
  rw [Tree.get?_empty]
  split <;> simp

/-- Where the parent of a path is a directory, no file stands on the way. -/
theorem open_of_parent (ht : TreeOK t) (hp : parent? q = some d)
    (hd : t.get? d = some .dir) : t.Open q := by
  intro x hx s hs
  rw [ancestors_of_parent? hp] at hx
  rcases List.mem_cons.1 hx with rfl | hx
  · rw [hd] at hs; cases hs
  · exact ht.below_file hs (Option.isSome_of_eq_some hd) hx

/-- The tree with an entry at a path, and with directories all the way to it. -/
def Tree.plant (t : Tree) (q : String) (e : Entry) : Tree := (t.addDirs (ancestors q)).bind q e

theorem get?_addDirs (t : Tree) (ds : List String) (key : String) :
    (t.addDirs ds).get? key = if key ∈ ds then some .dir else t.get? key := by
  induction ds with
  | nil => simp [Tree.addDirs]
  | cons d ds ih =>
    have hc : (t.addDirs (d :: ds)) = (t.addDirs ds).bind d .dir := rfl
    rw [hc, Tree.get?_bind, ih]
    by_cases hd : d = key
    · subst hd; simp
    · have hd' : key ≠ d := fun h => hd h.symm
      simp [hd, hd']

@[simp] theorem get?_plant (t : Tree) (q : String) (e : Entry) (key : String) :
    (t.plant q e).get? key =
      if key = q then some e else if key ∈ ancestors q then some .dir else t.get? key := by
  unfold Tree.plant
  rw [Tree.get?_bind, get?_addDirs]
  by_cases hq : q = key
  · rw [if_pos hq, if_pos hq.symm]
  · rw [if_neg hq, if_neg (Ne.symm hq)]

/-- Planted on an open way, an entry comes with the directories that are missing and with no other
change. -/
theorem Tree.Open.get?_plant (ho : t.Open q) (e : Entry) (key : String) :
    (t.plant q e).get? key =
      if key = q then some e
      else if t.get? key = none ∧ key ∈ ancestors q then some .dir
      else t.get? key := by
  rw [Store.get?_plant]
  by_cases hq : key = q
  · rw [if_pos hq, if_pos hq]
  rw [if_neg hq, if_neg hq]
  by_cases ha : key ∈ ancestors q
  · rw [if_pos ha]
    cases hk : t.get? key with
    | none => rw [if_pos ⟨rfl, ha⟩]
    | some e =>
      -- what stands on the way is a directory already
      rw [if_neg (by simp)]
      cases e with
      | dir => rfl
      | file x => exact absurd hk (ho key ha x)
  · rw [if_neg ha, if_neg fun hc => ha hc.2]

/-! ## Spellings

An operation sees no more of a path than its canonical spelling. -/

section Spellings

variable (h : canonical p = canonical q)

include h

theorem list_spelling : t.list p = t.list q := by
  unfold Tree.list
  rw [h]

theorem read_spelling : t.read p = t.read q := by
  unfold Tree.read
  rw [h]

theorem create_spelling : t.create p e = t.create q e := by
  unfold Tree.create
  rw [h]

theorem deleteFile_spelling : t.deleteFile p = t.deleteFile q := by
  unfold Tree.deleteFile
  rw [h]

theorem deleteDirectory_spelling : t.deleteDirectory p = t.deleteDirectory q := by
  unfold Tree.deleteDirectory
  rw [h]

end Spellings

/-! ## Reading and writing -/

/-- **When a file is read**: exactly if it is one. -/
theorem read_ok : t.read p = .ok c ↔ t.get? (canonical p) = some (.file c) := by
  unfold Tree.read
  simp only
  cases hg : t.get? (canonical p) with
  | none => simp
  | some e => cases e <;> simp

/-- The search for missing directories finds what it takes to have all of them. -/
theorem missing_of_open (ht : TreeOK t) (ho : t.Open q) :
    ∃ ms, t.missing (ancestors q) = .ok ms ∧ t.addDirs ms = t.addDirs (ancestors q) := by
  unfold Tree.Open at ho
  generalize hl : ancestors q = l at ho
  induction l generalizing q with
  | nil => exact ⟨[], rfl, rfl⟩
  | cons d l ih =>
    obtain ⟨hp, hd⟩ := parent?_of_ancestors hl
    unfold Tree.missing
    cases hg : t.get? d with
    | some e =>
      cases e with
      | file s => exact absurd hg (ho d List.mem_cons_self s)
      | dir =>
        -- what lies above a directory is there already
        refine ⟨[], rfl, Tree.ext_get? fun key => ?_⟩
        rw [get?_addDirs, get?_addDirs, if_neg List.not_mem_nil]
        split
        · rename_i hk
          rcases List.mem_cons.1 hk with rfl | hk
          · exact hg
          · exact ht.above (Option.isSome_of_eq_some hg) (hd ▸ hk)
        · rfl
    | none =>
      obtain ⟨ms, hm, he⟩ := ih hd fun x hx => ho x (List.mem_cons_of_mem _ hx)
      refine ⟨d :: ms, by simp only [hm]; rfl, Tree.ext_get? fun key => ?_⟩
      have hk : ∀ ds : List String, t.addDirs (d :: ds) = (t.addDirs ds).bind d .dir := fun _ => rfl
      rw [hk, hk, he]

/-- Of the ancestors of a path at most one is a file, and the search for missing directories stops
there. -/
theorem missing_of_file (ht : TreeOK t) (hd : d ∈ ancestors q) {s : String}
    (hf : t.get? d = some (.file s)) : t.missing (ancestors q) = .error (.notDirectory d) := by
  generalize hl : ancestors q = l at hd
  induction l generalizing q with
  | nil => cases hd
  | cons x l ih =>
    obtain ⟨hp, hx⟩ := parent?_of_ancestors hl
    unfold Tree.missing
    by_cases hxd : x = d
    · subst hxd; rw [hf]
    have hdl : d ∈ l := (List.mem_cons.1 hd).resolve_left fun h => hxd h.symm
    have hnone : t.get? x = none := by
      cases hg : t.get? x with
      | none => rfl
      | some e => exact absurd (hx ▸ hdl) (ht.below_file hf (Option.isSome_of_eq_some hg))
    rw [hnone]
    simp only [ih hx hdl]; rfl

theorem write_of_dir (h : t.get? (canonical p) = some .dir) :
    t.write p c = .error (.isDirectory (canonical p)) := by
  unfold Tree.write; simp [h]

theorem write_of_file (ht : TreeOK t) (hd : d ∈ ancestors (canonical p)) {s : String}
    (hf : t.get? d = some (.file s)) : t.write p c = .error (.notDirectory d) := by
  have hn : t.get? (canonical p) ≠ some .dir := fun h =>
    ht.below_file hf (Option.isSome_of_eq_some h) hd
  unfold Tree.write
  simp only
  rw [if_neg hn, missing_of_file ht hd hf]

theorem write_of_open (ht : TreeOK t) (hn : t.get? (canonical p) ≠ some .dir)
    (ho : t.Open (canonical p)) : t.write p c = .ok (t.plant (canonical p) (.file c)) := by
  obtain ⟨ms, hm, he⟩ := missing_of_open ht ho
  unfold Tree.write
  simp only
  rw [if_neg hn, hm]
  simp only [he]; rfl

/-- **When a file is written**: exactly if its path leads to no directory and no file stands on the
way. Then the file is planted there. -/
theorem write_ok (ht : TreeOK t) : t.write p c = .ok t' ↔
    t.get? (canonical p) ≠ some .dir ∧ t.Open (canonical p) ∧
      t' = t.plant (canonical p) (.file c) := by
  constructor
  · intro h
    have hn : t.get? (canonical p) ≠ some .dir := by
      intro hd; rw [write_of_dir hd] at h; cases h
    have ho : t.Open (canonical p) := by
      intro d hd s hf; rw [write_of_file ht hd hf] at h; cases h
    rw [write_of_open ht hn ho] at h
    exact ⟨hn, ho, (Except.ok.inj h).symm⟩
  · rintro ⟨hn, ho, rfl⟩; exact write_of_open ht hn ho

/-- Whatever the tree, what has been written is there. -/
theorem get?_write (h : t.write p c = .ok t') : t'.get? (canonical p) = some (.file c) := by
  unfold Tree.write at h
  simp only at h
  split at h
  · cases h
  split at h
  · cases h
  · obtain rfl := Except.ok.inj h
    rw [Tree.get?_bind, if_pos rfl]

/-! ## Creating and deleting -/

/-- **When an entry is created**: exactly if there is nothing at its path and its parent is a
directory. -/
theorem create_ok : t.create p e = .ok t' ↔
    t.get? (canonical p) = none ∧ (∃ d, parent? (canonical p) = some d ∧ t.get? d = some .dir) ∧
      t' = t.bind (canonical p) e := by
  unfold Tree.create
  simp only
  cases hg : t.get? (canonical p) with
  | some e' => simp
  | none =>
    cases hp : parent? (canonical p) with
    | none => simp
    | some d =>
      simp only [Option.isSome_none, Bool.false_eq_true, if_false, Option.some.injEq,
        exists_eq_left', true_and]
      cases hd : t.get? d with
      | none => simp
      | some e' =>
        cases e' with
        | file s => simp
        | dir => simp [eq_comm]

/-- **When a file is deleted**: exactly if it is one. -/
theorem deleteFile_ok : t.deleteFile p = .ok t' ↔
    (∃ s, t.get? (canonical p) = some (.file s)) ∧ t' = t.unbind (canonical p) := by
  unfold Tree.deleteFile
  simp only
  cases hg : t.get? (canonical p) with
  | none => simp
  | some e =>
    cases e with
    | file s => simp [eq_comm]
    | dir => simp

/-- Something lies below a directory exactly if some entry has it among its ancestors. -/
theorem occupied_iff (ht : TreeOK t) (hq : canonical q = q) (hne : q ≠ "/") :
    t.occupied q = true ↔ ∃ key, (t.get? key).isSome ∧ q ∈ ancestors key := by
  unfold Tree.occupied
  simp only [List.any_eq_true, Tree.mem_keys]
  exact exists_congr fun key => and_congr_right fun hk =>
    below_iff_mem_ancestors hq (ht.canon key hk) hne

/-- **When a directory is deleted**: exactly if it is one, is not the root, and nothing lies
below it. -/
theorem deleteDirectory_ok (ht : TreeOK t) : t.deleteDirectory p = .ok t' ↔
    canonical p ≠ "/" ∧ t.get? (canonical p) = some .dir ∧
      (∀ key, (t.get? key).isSome → canonical p ∉ ancestors key) ∧ t' = t.unbind (canonical p) := by
  unfold Tree.deleteDirectory
  simp only
  by_cases hr : canonical p = "/"
  · simp [hr]
  rw [if_neg hr]
  have ho := occupied_iff ht (canonical_canonical p) hr
  cases hg : t.get? (canonical p) with
  | none => simp
  | some e =>
    cases e with
    | file s => simp
    | dir =>
      simp only [ne_eq, hr, not_false_eq_true, true_and]
      by_cases hoc : t.occupied (canonical p) = true
      · obtain ⟨key, hk, hm⟩ := ho.1 hoc
        simp only [hoc, if_true, reduceCtorEq, false_iff]
        rintro ⟨h, -⟩; exact h key hk hm
      · have hno : ∀ key, (t.get? key).isSome → canonical p ∉ ancestors key :=
          fun key hk hm => hoc (ho.2 ⟨key, hk, hm⟩)
        simp only [hoc, if_false, Except.ok.injEq, Bool.false_eq_true]
        constructor
        · intro h; exact ⟨hno, h.symm⟩
        · rintro ⟨-, h⟩; exact h.symm

/-! ## The invariant is kept -/

/-- **Planting keeps the invariant**, unless a file goes where a directory is. -/
theorem TreeOK.plant (ht : TreeOK t) (hq : canonical q = q)
    (hn : t.get? q = some .dir → e = .dir) : TreeOK (t.plant q e) := by
  refine ⟨?_, ?_, ?_⟩
  · rw [get?_plant]
    split
    · rename_i h; subst h; rw [hn ht.root]
    · rename_i h; rw [if_pos (root_mem_ancestors hq (Ne.symm h))]
  · intro key hk
    rw [get?_plant] at hk
    split at hk
    · rename_i h; subst h; exact hq
    split at hk
    · rename_i h; exact canonical_of_mem_ancestors hq h
    · exact ht.canon key hk
  · intro key d hk hp
    rw [get?_plant] at hk ⊢
    split at hk
    · rename_i h; subst h
      have hd := parent?_mem_ancestors hp
      rw [if_neg (ne_of_mem_ancestors hd), if_pos hd]
    split at hk
    · rename_i h
      have hd := ancestors_trans h (parent?_mem_ancestors hp)
      rw [if_neg (ne_of_mem_ancestors hd), if_pos hd]
    · have hd := ht.parent key d hk hp
      split
      · rename_i h; subst h; rw [hn hd]
      split
      · rfl
      · exact hd

/-- Where the parent is a directory, no directory is missing on the way. -/
theorem plant_eq_bind (ht : TreeOK t) (hp : parent? q = some d)
    (hd : t.get? d = some .dir) : t.plant q e = t.bind q e := by
  refine Tree.ext_get? fun key => ?_
  rw [get?_plant, Tree.get?_bind]
  by_cases hk : key = q
  · rw [if_pos hk, if_pos hk.symm]
  rw [if_neg hk, if_neg (Ne.symm hk)]
  split
  · rename_i h
    rw [ancestors_of_parent? hp] at h
    rcases List.mem_cons.1 h with rfl | h
    · exact hd.symm
    · exact (ht.above (Option.isSome_of_eq_some hd) h).symm
  · rfl

/-- **Taking away keeps the invariant** if nothing lies below. -/
theorem TreeOK.unbind (ht : TreeOK t) (hne : q ≠ "/")
    (hb : ∀ key, (t.get? key).isSome → q ∉ ancestors key) : TreeOK (t.unbind q) := by
  refine ⟨?_, ?_, ?_⟩
  · rw [Tree.get?_unbind, if_neg hne]; exact ht.root
  · intro key hk
    rw [Tree.get?_unbind] at hk
    split at hk
    · simp at hk
    · exact ht.canon key hk
  · intro key d hk hp
    rw [Tree.get?_unbind] at hk ⊢
    split at hk
    · simp at hk
    rw [if_neg]
    · exact ht.parent key d hk hp
    · rintro rfl; exact hb key hk (parent?_mem_ancestors hp)

theorem write_keeps (ht : TreeOK t) (h : t.write p c = .ok t') : TreeOK t' := by
  obtain ⟨hn, -, rfl⟩ := (write_ok ht).1 h
  exact ht.plant (canonical_canonical p) fun hd => absurd hd hn

theorem create_keeps (ht : TreeOK t) (h : t.create p e = .ok t') : TreeOK t' := by
  obtain ⟨hn, ⟨d, hp, hd⟩, rfl⟩ := create_ok.1 h
  rw [← plant_eq_bind ht hp hd]
  exact ht.plant (canonical_canonical p) fun hd => by rw [hn] at hd; cases hd

theorem deleteFile_keeps (ht : TreeOK t) (h : t.deleteFile p = .ok t') : TreeOK t' := by
  obtain ⟨⟨s, hs⟩, rfl⟩ := deleteFile_ok.1 h
  exact ht.unbind (ht.ne_root (by simp [hs])) fun key hk => ht.below_file hs hk

theorem deleteDirectory_keeps (ht : TreeOK t) (h : t.deleteDirectory p = .ok t') : TreeOK t' := by
  obtain ⟨hr, -, hb, rfl⟩ := (deleteDirectory_ok ht).1 h
  exact ht.unbind hr hb

theorem commit_keeps {r : Except Fault Tree} (ht : TreeOK t) (h : ∀ t', r = .ok t' → TreeOK t') :
    TreeOK (t.commit r).2 := by
  cases r with
  | ok t' => exact h t' rfl
  | error f => exact ht

/-- **Every request keeps the invariant**, whether it succeeds or fails. -/
theorem ask_ok (ht : TreeOK t) (r : Request) : TreeOK (r.ask t).2 := by
  cases r with
  | has p => exact ht
  | list p => exact ht
  | read p => exact ht
  | write p c => exact commit_keeps ht fun _ => write_keeps ht
  | createFile p c => exact commit_keeps ht fun _ => create_keeps ht
  | createDirectory p => exact commit_keeps ht fun _ => create_keeps ht
  | deleteFile p => exact commit_keeps ht fun _ => deleteFile_keeps ht
  | deleteDirectory p => exact commit_keeps ht fun _ => deleteDirectory_keeps ht

end TreeShell.Store
