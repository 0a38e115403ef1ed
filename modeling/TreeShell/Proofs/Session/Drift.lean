import TreeShell.Proofs.Session.Moves

/-!
# Where the directory lies in the store

A session keeps its directory as a tidy path, and the store reads it as it reads every path. Both cut
at a slash; the store cuts at a backslash, too, which is a character of a name to `cd`.

* `canonical_tidy_iff`: a tidy path is canonical exactly if there is no backslash in it.
* `mem_tidy`: tidying brings in no character but slashes, so no backslash.
* `names_up`, `canonical_up_iff`: `cd ..` takes back one name, and when that is one name of the store.
* `roam`, `roam_keeps`: any number of `cd`, with any arguments, and what each of them keeps.
* `roam_anchored`: **session and store agree on the directory** as long as it holds no backslash.
* `backslash_drifts`: where they do not.
-/

namespace TreeShell

open TreeShell.Path

/-! ## Tidy paths in the store -/

namespace WorkDir

variable {c p : String} {x : Char}

theorem Plain.nameOK (h : Plain c) (hc : '\\' ∉ c.toList) : NameOK c :=
  ⟨by simp [isName, h.full, h.dot], h.slash, hc⟩

/-- The names of a tidy path without a backslash are sound in the store. -/
theorem partsOK_names (hc : tidy c = c) (hback : '\\' ∉ c.toList) : PartsOK (names c) := by
  intro name hname
  refine (names_plain c name hname).nameOK fun hx => hback ?_
  -- a character of a name is one of the path
  have hne : names c ≠ [] := List.ne_nil_of_mem hname
  rw [← hc, tidy_eq, toList_ofParts hne]
  exact List.mem_flatMap.2 ⟨name, hname, List.mem_cons_of_mem _ hx⟩

/-- **A tidy path is canonical** exactly if there is no backslash in it. -/
theorem canonical_tidy_iff (hc : tidy c = c) : canonical c = c ↔ '\\' ∉ c.toList := by
  constructor
  · intro h
    exact (spelled_of_canonical h).backslash
  · intro hback
    exact canonical_eq_self_iff.2 ⟨names c, partsOK_names hc hback, hc⟩

theorem mem_foldl_push {ps stack : List String} (h : c ∈ ps.foldl push stack) :
    c ∈ stack ∨ c ∈ ps := by
  induction ps generalizing stack with
  | nil => exact .inl h
  | cons part ps ih =>
    rcases ih h with hpush | hps
    · unfold push at hpush
      split at hpush
      · exact .inl hpush
      split at hpush
      · exact .inl (List.dropLast_subset stack hpush)
      · rcases List.mem_append.1 hpush with hstack | hpart
        · exact .inl hstack
        · exact .inr (List.mem_singleton.1 hpart ▸ List.mem_cons_self)
    · exact .inr (List.mem_cons_of_mem part hps)

/-- **Tidying brings in no character** but slashes. -/
theorem mem_tidy (h : x ∈ (tidy p).toList) : x = '/' ∨ x ∈ p.toList := by
  rw [tidy_eq, toList_ofParts_eq, List.mem_cons] at h
  rcases h with rfl | h
  · exact .inl rfl
  rcases Text.mem_of_mem_intercalate h with hsep | ⟨s, hs, hx⟩
  · exact .inl (List.mem_singleton.1 hsep)
  obtain ⟨name, hname, rfl⟩ := List.mem_map.1 hs
  -- the names are pieces of the path
  rcases mem_foldl_push hname with hnil | hmem
  · exact absurd hnil List.not_mem_nil
  obtain ⟨piece, hpiece, rfl⟩ := List.mem_map.1 hmem
  rw [String.toList_ofList] at hx
  exact .inr (Text.mem_of_mem_splitOn hpiece hx)

/-- Locating an argument brings in no character but a slash, either. -/
theorem mem_locate {arg : Option String} {cwd : String} (h : x ∈ (locate arg cwd).toList) :
    x = '/' ∨ x ∈ cwd.toList ∨ ∃ a ∈ arg, x ∈ a.toList := by
  unfold locate at h
  split at h
  · exact .inr (.inl h)
  rename_i a
  split at h
  · exact .inr (.inl h)
  split at h
  · exact .inr (.inr ⟨a, rfl, h⟩)
  · rw [String.toList_append, String.toList_append, List.mem_append, List.mem_append] at h
    rcases h with (hcwd | hslash) | ha
    · exact .inr (.inl hcwd)
    · exact .inl (List.mem_singleton.1 hslash)
    · exact .inr (.inr ⟨a, rfl, ha⟩)

/-! ## One directory up -/

/-- **`cd ..` takes back one name.** -/
theorem names_up (c : String) : names (move c (some "..")) = (names c).dropLast := by
  have hup : ".." ≠ "" ∧ ¬ Absolute ".." := by
    unfold Absolute
    decide
  have hpieces : pieces ".." = [".."] := by decide
  unfold move
  rw [names_tidy, locate_relative hup.1 hup.2, names_join, hpieces]
  rfl

theorem move_tidy (c : String) (target : Option String) : tidy (move c target) = move c target :=
  tidy_tidy _

/-- Without its last item, a list that ends in `last` has lost all of that exactly if it was one item,
or if there is nothing to lose. -/
theorem eq_dropLast_append_iff {α : Type} {l last : List α} :
    l = (l ++ last).dropLast ↔ l ++ last = [] ∨ last.length = 1 := by
  constructor
  · intro h
    have hlength := congrArg List.length h
    rw [List.length_dropLast, List.length_append] at hlength
    by_cases hone : last.length = 1
    · exact .inr hone
    · refine .inl (List.eq_nil_of_length_eq_zero ?_)
      rw [List.length_append]
      omega
  · rintro (hnone | hone)
    · rw [hnone, (List.append_eq_nil_iff.1 hnone).1]
      rfl
    · obtain ⟨part, hpart⟩ := List.length_eq_one_iff.1 hone
      rw [hpart, List.dropLast_concat]

/-- **`cd ..` leads to the parent in the store** exactly if the name it takes back is one name there,
or if there is nothing to take back in the store. -/
theorem canonical_up_iff (hc : tidy c = c) :
    canonical (move c (some "..")) = (parent? (canonical c)).getD "/" ↔
      canonical c = "/" ∨ ∃ name, (names c).getLast? = some name ∧ (parts name).length = 1 := by
  have hparts : ∀ c, tidy c = c → parts c = (names c).flatMap parts := fun c hc => by
    rw [← parts_tidy_names, hc]
  have hup : canonical (move c (some "..")) = ofParts ((names c).dropLast.flatMap parts) := by
    rw [← names_up, ← hparts _ (move_tidy c _)]
    rfl
  have hroot : canonical c = "/" ↔ parts c = [] := ofParts_eq_root (partsOK_parts c)
  have hok := partsOK_parts c
  rw [parent?_canonical, hup, hroot]
  rw [hparts c hc] at hok ⊢
  -- the session takes back all parts of its last name, the store the last part of all
  rcases List.eq_nil_or_concat (names c) with hnil | ⟨front, name, hlast⟩
  · simp [hnil]
  rw [List.concat_eq_append] at hlast
  rw [hlast, List.flatMap_append, List.flatMap_singleton] at hok ⊢
  have hfront := (partsOK_append.1 hok).1
  have hdrop : PartsOK (front.flatMap parts ++ parts name).dropLast :=
    fun d hd => hok d (List.dropLast_subset _ hd)
  rw [List.dropLast_concat, List.getLast?_concat, ofParts_inj hfront hdrop]
  simp only [Option.some.injEq, exists_eq_left']
  exact eq_dropLast_append_iff

/-- Where there is no backslash, `cd ..` leads to the parent in the store. -/
theorem canonical_up (hc : tidy c = c) (hback : '\\' ∉ c.toList) :
    canonical (move c (some "..")) = (parent? (canonical c)).getD "/" := by
  rw [canonical_up_iff hc]
  rcases List.eq_nil_or_concat (names c) with hnil | ⟨front, name, hlast⟩
  · left
    rw [(canonical_tidy_iff hc).2 hback, ← hc, tidy_eq, hnil, ofParts_nil]
  · rw [List.concat_eq_append] at hlast
    have hname : NameOK name := by
      refine partsOK_names hc hback name ?_
      rw [hlast]
      exact List.mem_append_right front List.mem_cons_self
    refine .inr ⟨name, by rw [hlast, List.getLast?_concat], ?_⟩
    rw [parts_name hname]
    rfl

end WorkDir

/-! ## Sessions -/

namespace Session

open Command (Builtin)
open Store (Backend Tree)
open WorkDir

variable {σ : Type} [Backend σ] {s : Session σ}

/-- The session after any number of `cd`, each with its arguments. -/
def roam (s : Session σ) (calls : List (List String)) : Session σ :=
  calls.foldl (fun s args => (s.execute "cd" args "").2) s

/-- A `cd` moves a session along its first argument, or may not be run. -/
theorem execute_cd_cwd (s : Session σ) (args : List String) (piped : String) :
    (s.execute "cd" args piped).2.cwd = move s.cwd args[0]? ∨
      (s.execute "cd" args piped).2.cwd = s.cwd := by
  by_cases h : "cd" ∈ s.commands
  · have hcd : s.execute "cd" args piped = s.runBuiltin .cd args piped :=
      execute_builtin .cd h args piped
    rw [hcd]
    exact .inl rfl
  · rw [execute_unknown fun hname => h hname.1]
    exact .inr rfl

/-- **What a move along each of the first arguments keeps** of a directory, `cd` keeps. -/
theorem roam_keeps {I : String → Prop} {calls : List (List String)}
    (hI : ∀ args ∈ calls, ∀ c, I c → I (move c args[0]?)) (hs : I s.cwd) : I (s.roam calls).cwd := by
  unfold roam
  induction calls generalizing s with
  | nil => exact hs
  | cons args calls ih =>
    refine ih (fun args' h => hI args' (List.mem_cons_of_mem args h)) ?_
    rcases execute_cd_cwd s args "" with hcwd | hcwd
    · rw [hcwd]
      exact hI args List.mem_cons_self _ hs
    · rw [hcwd]
      exact hs

/-- **Session and store agree on the directory** as long as it holds no backslash.

Wherever any `cd` lead from the root, the directory is canonical in the store exactly if there is no
backslash in it; so it is if no `cd` has been given one. Then `cd ..` leads to the parent in the store,
and to the root from the root. In general it does so exactly if the last name of the directory is one
name in the store, or the directory is the root there. -/
theorem roam_anchored (m : Machine σ) (commands : List String) (prompt : String)
    (calls : List (List String)) :
    let c := ((m.session commands prompt).roam calls).cwd
    (canonical c = c ↔ '\\' ∉ c.toList) ∧
    ((∀ args ∈ calls, ∀ arg ∈ args[0]?, '\\' ∉ arg.toList) → '\\' ∉ c.toList) ∧
    ('\\' ∉ c.toList → canonical (move c (some "..")) = (parent? (canonical c)).getD "/") ∧
    (canonical (move c (some "..")) = (parent? (canonical c)).getD "/" ↔
      canonical c = "/" ∨ ∃ name, (names c).getLast? = some name ∧ (parts name).length = 1) := by
  intro c
  have hc : tidy c = c := roam_keeps (I := fun c => tidy c = c) (fun _ _ c _ => move_tidy c _)
    root_tidy.fixed
  refine ⟨canonical_tidy_iff hc, fun hcalls => ?_, canonical_up hc, canonical_up_iff hc⟩
  have hroot : '\\' ∉ "/".toList := by decide
  refine roam_keeps (I := fun c => '\\' ∉ c.toList) (fun args hargs c hback hmoved => ?_) hroot
  -- a backslash would come from the directory before, or from the argument
  rcases mem_tidy hmoved with hslash | hpath
  · cases hslash
  rcases mem_locate hpath with hslash | hcwd | ⟨arg, harg, hx⟩
  · cases hslash
  · exact hback hcwd
  · exact hcalls args hargs arg harg hx

/-- To `cd` the backslash is a character of the one name, in the store it cuts two names apart: the
directory is not canonical there, and `cd ..` leads from a directory two levels down to the root. -/
theorem backslash_drifts :
    let c := (rover.roam [["a\\b"]]).cwd
    c = "/a\\b" ∧ canonical c = "/a/b" ∧ canonical c ≠ c ∧
      canonical (move c (some "..")) = "/" ∧ parent? (canonical c) = some "/a" ∧
      canonical (move c (some "..")) ≠ (parent? (canonical c)).getD "/" := by
  decide

end Session

end TreeShell
