import TreeShell.Proofs.Store.Change

/-!
# Changes that are taken back

Creating and deleting are inverse to each other. That a new directory is empty, and that the parent of
a deleted entry still takes a new one, is looked at by neither: both come from the invariant.

* `below_created`: below a path without an entry there is nothing, so neither is there below an entry
  that has just been created.
* `create_unbound`: an entry that has been taken away can be created again.
* `create_delete_inverse`: **what is created can be deleted and what is deleted created**, and the
  tree is the one from before.
-/

namespace TreeShell.Store

open TreeShell.Path

variable {t t' : Tree} {key q p p' c : String} {e : Entry}

/-! ## One key -/

theorem unbind_bind (h : t.get? q = none) : (t.bind q e).unbind q = t := by
  refine Tree.ext_get? fun key => ?_
  rw [Tree.get?_unbind, Tree.get?_bind]
  by_cases hk : q = key
  · subst hk
    rw [if_pos rfl, h]
  · rw [if_neg hk, if_neg hk]

theorem bind_unbind (h : t.get? q = some e) : (t.unbind q).bind q e = t := by
  refine Tree.ext_get? fun key => ?_
  rw [Tree.get?_bind, Tree.get?_unbind]
  by_cases hk : q = key
  · subst hk
    rw [if_pos rfl, h]
  · rw [if_neg hk, if_neg hk]

/-! ## One change -/

/-- **Below a new entry there is nothing**: what is there would have had no directory to lie in. -/
theorem below_created (ht : TreeOK t) (hn : t.get? q = none) (hk : ((t.bind q e).get? key).isSome) :
    q ∉ ancestors key := by
  intro hq
  -- what is there now was there before, below no entry at all
  rw [Tree.get?_bind, if_neg (ne_of_mem_ancestors hq)] at hk
  have hdir := ht.above hk hq
  rw [hn] at hdir
  cases hdir

/-- **An entry that has been taken away** can be created again: its parent is a directory still. -/
theorem create_unbound (ht : TreeOK t) (h : t.get? (canonical p) = some e) (hroot : canonical p ≠ "/") :
    (t.unbind (canonical p)).create p e = .ok t := by
  obtain ⟨d, hd⟩ := exists_parent? (canonical_canonical p) hroot
  have hne : d ≠ canonical p := ne_of_mem_ancestors (parent?_mem_ancestors hd)
  have hdir : t.get? d = some .dir := ht.parent _ d (Option.isSome_of_eq_some h) hd
  refine create_ok.2 ⟨?_, ⟨d, hd, ?_⟩, (bind_unbind h).symm⟩
  · rw [Tree.get?_unbind, if_pos rfl]
  · rw [Tree.get?_unbind, if_neg hne.symm]
    exact hdir

theorem deleteDirectory_created (ht : TreeOK t) (h : t.createDirectory p = .ok t') :
    t'.deleteDirectory p = .ok t := by
  have ht' : TreeOK t' := create_keeps ht h
  obtain ⟨hn, -, rfl⟩ := create_ok.1 h
  have hroot : canonical p ≠ "/" := ht.ne_root (by simp [hn])
  have hdir : (t.bind (canonical p) .dir).get? (canonical p) = some .dir := by
    rw [Tree.get?_bind, if_pos rfl]
  exact (deleteDirectory_ok ht').2
    ⟨hroot, hdir, fun key hk => below_created ht hn hk, (unbind_bind hn).symm⟩

theorem deleteFile_created (h : t.createFile p c = .ok t') : t'.deleteFile p = .ok t := by
  obtain ⟨hn, -, rfl⟩ := create_ok.1 h
  have hfile : (t.bind (canonical p) (.file c)).get? (canonical p) = some (.file c) := by
    rw [Tree.get?_bind, if_pos rfl]
  exact deleteFile_ok.2 ⟨⟨c, hfile⟩, (unbind_bind hn).symm⟩

theorem createDirectory_deleted (ht : TreeOK t) (h : t.deleteDirectory p = .ok t') :
    t'.createDirectory p = .ok t := by
  obtain ⟨hroot, hdir, -, rfl⟩ := (deleteDirectory_ok ht).1 h
  exact create_unbound ht hdir hroot

theorem createFile_deleted (ht : TreeOK t) (hc : t.read p = .ok c) (h : t.deleteFile p = .ok t') :
    t'.createFile p c = .ok t := by
  have hfile := read_ok.1 hc
  have hroot : canonical p ≠ "/" := ht.ne_root (by simp [hfile])
  obtain ⟨-, rfl⟩ := deleteFile_ok.1 h
  exact create_unbound ht hfile hroot

/-- **Creating and deleting are inverse to each other.**

What has been created can be deleted at once, and what has been deleted can be created again, a file
with the content it had, in any spelling of the path. The tree is then the one from before. -/
theorem create_delete_inverse (ht : TreeOK t) (hp : canonical p' = canonical p) :
    (∀ t', t.createDirectory p = .ok t' → t'.deleteDirectory p' = .ok t) ∧
    (∀ c t', t.createFile p c = .ok t' → t'.deleteFile p' = .ok t) ∧
    (∀ t', t.deleteDirectory p = .ok t' → t'.createDirectory p' = .ok t) ∧
    ∀ c t', t.read p = .ok c → t.deleteFile p = .ok t' → t'.createFile p' c = .ok t := by
  refine ⟨fun t' h => ?_, fun c t' h => ?_, fun t' h => ?_, fun c t' hc h => ?_⟩
  · rw [deleteDirectory_spelling hp]
    exact deleteDirectory_created ht h
  · rw [deleteFile_spelling hp]
    exact deleteFile_created h
  · have hagain : t'.create p' .dir = t'.create p .dir := create_spelling hp
    exact hagain.trans (createDirectory_deleted ht h)
  · have hagain : t'.create p' (.file c) = t'.create p (.file c) := create_spelling hp
    exact hagain.trans (createFile_deleted ht hc h)

/-- A tree with a file and an empty directory in one directory. -/
def shed : Tree :=
  ((Request.createDirectory "/d/e").ask ((Request.write "/d/a" "old").ask Tree.empty).2).2

/-- Created beside the file, in two spellings, and deleted: the empty directory and the file. -/
theorem create_delete_inverse_shed :
    TreeOK shed ∧ canonical "//d/./x" = canonical "d\\x" ∧
      (∃ t', shed.createDirectory "d\\x" = .ok t' ∧ t'.deleteDirectory "//d/./x" = .ok shed) ∧
      (∃ t', shed.createFile "d\\x" "new" = .ok t' ∧ t'.deleteFile "//d/./x" = .ok shed) ∧
      (∃ t', shed.deleteDirectory "/d/e" = .ok t' ∧ t'.createDirectory "d//e/" = .ok shed) ∧
      ∃ t', shed.deleteFile "/d/a" = .ok t' ∧ t'.createFile "\\d\\a" "old" = .ok shed := by
  have ht : TreeOK shed := ask_ok (ask_ok empty_ok _) _
  have hx : canonical "//d/./x" = canonical "d\\x" := by decide
  have he : canonical "d//e/" = canonical "/d/e" := by decide
  have ha : canonical "\\d\\a" = canonical "/d/a" := by decide
  obtain ⟨hmake, htouch, -, -⟩ := create_delete_inverse ht hx
  obtain ⟨-, -, hremake, -⟩ := create_delete_inverse ht he
  obtain ⟨-, -, -, hretouch⟩ := create_delete_inverse ht ha
  exact ⟨ht, hx, ⟨_, rfl, hmake _ rfl⟩, ⟨_, rfl, htouch "new" _ rfl⟩, ⟨_, rfl, hremake _ rfl⟩,
    ⟨_, rfl, hretouch "old" _ rfl rfl⟩⟩

end TreeShell.Store
