import TreeShell.Proofs.Host.Quiet

/-!
# Writing a file of a disk

A file that is put where there is no directory leaves every way that there is.

* `follow_put`: a path leads where it led before.
* `Place`: a path by which a file can be written. `Place.put`: it stays one when a file is put
  there.
* `Place.writeText`, `Place.readText`: **the file is written, and what was written is read.**
* `Place.makeDirectories`: its directory is not made again.
* `Faithful`: a host on which what was written is read. `disk_faithful`: **a disk is one**, whatever
  there is on it.
-/

namespace TreeShell.Host.Disk

open Store (Entry)

variable {d d' : Disk} {place names names' parts : List String} {path text : String} {e : Entry}

/-- At another place the disk is as it was. -/
theorem get?_put (d : Disk) (place names : List String) (e : Entry) :
    (d.put place e).get? names =
      if names = [] then some .dir
      else if Path.ofParts place = Path.ofParts names then some e else d.get? names := by
  unfold get? put
  split
  · rfl
  · simp [Std.ExtTreeMap.getElem?_insert]

theorem put_put (d : Disk) (place : List String) (e e' : Entry) :
    (d.put place e).put place e' = d.put place e' := by
  unfold put
  congr 1
  refine Std.ExtTreeMap.ext_getElem? fun key => ?_
  simp only [Std.ExtTreeMap.getElem?_insert]
  split <;> rfl

theorem get?_put_dir (hplace : d.get? place ≠ some .dir) (h : d.get? names = some .dir)
    (text : String) : (d.put place (.file text)).get? names = some .dir := by
  rw [get?_put]
  split
  · rfl
  · rename_i hne
    split
    · rename_i hkey
      have hplace' : place ≠ [] := fun hnil => hplace (by rw [hnil]; rfl)
      have hsame : d.get? place = d.get? names := by
        unfold get?
        rw [if_neg hplace', if_neg hne, hkey]
      rw [hsame] at hplace
      exact absurd h hplace
    · exact h

/-- **A way that there is stays.** -/
theorem follow_put (hplace : d.get? place ≠ some .dir) (h : d.follow names parts = .ok names')
    (text : String) : (d.put place (.file text)).follow names parts = .ok names' := by
  induction parts generalizing names with
  | nil => exact h
  | cons part parts ih =>
    unfold follow at h ⊢
    cases hd : d.get? names with
    | none => rw [hd] at h; cases h
    | some e =>
      cases e with
      | file _ => rw [hd] at h; cases h
      | dir =>
        -- the place reached so far is a directory, so the file is somewhere else
        rw [get?_put_dir hplace hd text]
        rw [hd] at h
        simp only at h ⊢
        by_cases hidle : (part = "" || part = ".") = true
        · rw [if_pos hidle] at h ⊢
          exact ih h
        rw [if_neg hidle] at h ⊢
        by_cases hup : part = ".."
        · rw [if_pos hup] at h ⊢
          exact ih h
        rw [if_neg hup] at h ⊢
        by_cases hlong : maxName < part.utf8ByteSize
        · rw [if_pos hlong] at h
          cases h
        rw [if_neg hlong] at h ⊢
        exact ih h

theorem reach_put (hplace : d.get? place ≠ some .dir) (h : d.reach path = .ok names)
    (text : String) : (d.put place (.file text)).reach path = .ok names := by
  unfold reach at h ⊢
  by_cases hempty : path = ""
  · rw [if_pos hempty] at h
    cases h
  rw [if_neg hempty] at h ⊢
  by_cases hnul : path.toList.contains '\x00' = true
  · rw [if_pos hnul] at h
    cases h
  rw [if_neg hnul] at h ⊢
  by_cases hlong : maxPath ≤ path.utf8ByteSize
  · rw [if_pos hlong] at h
    cases h
  rw [if_neg hlong] at h ⊢
  exact follow_put hplace h text

theorem find_of_reach (h : d.reach path = .ok names) (he : d.get? names = some e) :
    d.find path = .ok e := by
  unfold find
  rw [h]
  simp only [bind, Except.bind, he]

theorem isDirectory_iff :
    d.isDirectory path = true ↔ ∃ names, d.reach path = .ok names ∧ d.get? names = some .dir := by
  constructor
  · intro h
    unfold isDirectory find at h
    cases hreach : d.reach path with
    | error f =>
      rw [hreach] at h
      cases h
    | ok names =>
      rw [hreach] at h
      simp only [bind, Except.bind] at h
      cases hget : d.get? names with
      | none =>
        rw [hget] at h
        cases h
      | some e =>
        rw [hget] at h
        cases e with
        | file text => cases h
        | dir => exact ⟨names, rfl, hget⟩
  · rintro ⟨names, hreach, hdir⟩
    unfold isDirectory
    rw [find_of_reach hreach hdir]

/-- **A path by which a file can be written**: it leads to a place where there is no directory, and
the directory it names the file in is there. -/
structure Place (d : Disk) (path : String) (place : List String) : Prop where
  reach : d.reach path = .ok place
  free : d.get? place ≠ some .dir
  noSlash : path.toList.getLast? ≠ some '/'
  directory : (parent? path).getD "" ≠ "" → d.isDirectory ((parent? path).getD "") = true ∧
    withoutSlashes ((parent? path).getD "") = (parent? path).getD ""

theorem Place.get?_put (h : d.Place path place) (text : String) :
    (d.put place (.file text)).get? place = some (.file text) := by
  have hne : place ≠ [] := fun hnil => h.free (by rw [hnil]; rfl)
  rw [Disk.get?_put, if_neg hne, if_pos rfl]

theorem Place.put (h : d.Place path place) (text : String) :
    (d.put place (.file text)).Place path place := by
  refine ⟨reach_put h.free h.reach text, ?_, h.noSlash, fun hne => ?_⟩
  · rw [h.get?_put text]
    simp
  · obtain ⟨hdir, hslash⟩ := h.directory hne
    obtain ⟨names, hreach, hdir⟩ := isDirectory_iff.mp hdir
    refine ⟨isDirectory_iff.mpr ⟨names, ?_, ?_⟩, hslash⟩
    · exact reach_put h.free hreach text
    · exact get?_put_dir h.free hdir text

/-- **What was written is read.** -/
theorem Place.readText (h : d.Place path place) (text : String) :
    (d.put place (.file text)).readText path = .ok text := by
  unfold Disk.readText
  rw [find_of_reach (reach_put h.free h.reach text) (h.get?_put text)]
  rfl

/-- Another file is read as before. -/
theorem readText_put (hplace : d.get? place ≠ some .dir) (h : d.reach path = .ok names)
    (hfile : d.get? names = some (.file text)) (hne : Path.ofParts place ≠ Path.ofParts names)
    (new : String) : (d.put place (.file new)).readText path = .ok text := by
  have hget : (d.put place (.file new)).get? names = some (.file text) := by
    rw [Disk.get?_put, if_neg hne, hfile]
    split
    · rename_i hnil
      rw [hnil] at hfile
      cases hfile
    · rfl
  unfold Disk.readText
  rw [find_of_reach (reach_put hplace h new) hget]
  rfl

/-- **The file is written**, also over another one. -/
theorem Place.writeText (h : d.Place path place) (text : String) :
    d.writeText path text = .ok (d.put place (.file text)) := by
  have hfree := h.free
  unfold Disk.writeText
  rw [if_neg h.noSlash, h.reach]
  simp only [bind, Except.bind]

/-- A file can be written only where there is no directory. Then what was written is read. -/
theorem readText_writeText (h : d.writeText path text = .ok d') : d'.readText path = .ok text := by
  unfold Disk.writeText at h
  split at h
  · cases hreach : d.reach (withoutSlashes path) with
    | error e => rw [hreach] at h; cases h
    | ok place => rw [hreach] at h; cases h
  · rename_i hslash
    cases hreach : d.reach path with
    | error e => rw [hreach] at h; cases h
    | ok place =>
      rw [hreach] at h
      simp only [bind, Except.bind] at h
      split at h
      · cases h
      · rename_i hfree
        obtain rfl := Except.ok.inj h
        have hne : place ≠ [] := fun hnil => hfree (by rw [hnil]; rfl)
        have hput : (d.put place (.file text)).get? place = some (.file text) := by
          rw [Disk.get?_put, if_neg hne, if_pos rfl]
        unfold Disk.readText
        rw [find_of_reach (reach_put hfree hreach text) hput]
        rfl

theorem Place.makeDirectories (h : d.Place path place) (hne : (parent? path).getD "" ≠ "") :
    d.makeDirectories ((parent? path).getD "") = .ok d := by
  obtain ⟨hisdir, hslash⟩ := h.directory hne
  obtain ⟨names, hreach, hdir⟩ := isDirectory_iff.mp hisdir
  have hmake : d.makeDirectory ((parent? path).getD "") = .error .exists := by
    unfold makeDirectory
    rw [hslash, hreach]
    simp only [bind, Except.bind, hdir]
  have hensure : d.ensureDirectory ((parent? path).getD "") = .ok d := by
    unfold ensureDirectory
    rw [hmake]
    exact if_pos hisdir
  unfold Disk.makeDirectories makeDirectoriesUpTo
  split
  · rfl
  · simp only [hmake, hensure]

theorem commit_ok {change : Disk → Except Errno Disk} (h : change d = .ok d') :
    commit change d = (.ok (), d') := by
  unfold commit
  rw [h]

end TreeShell.Host.Disk

namespace TreeShell.Host

/-- A host that questions leave as it is, and on which what was written is read. -/
structure Faithful (H : Type) [Host (StateM H)] : Prop extends Quiet H where
  written : ∀ path text h, (Host.writeText (m := StateM H) path text h).1 = .ok () →
    textAt path (Host.writeText (m := StateM H) path text h).2 = .ok text

/-- **A disk is faithful.** -/
theorem disk_faithful : Faithful Disk := by
  refine ⟨disk_quiet, fun path text d h => ?_⟩
  have hcommit : Host.writeText (m := StateM Disk) path text d =
      Disk.commit (·.writeText path text) d := rfl
  rw [hcommit] at h ⊢
  unfold Disk.commit at h ⊢
  cases hw : d.writeText path text with
  | error e => simp only [hw] at h; cases h
  | ok d' =>
    simp only [hw]
    exact Disk.readText_writeText hw

end TreeShell.Host
