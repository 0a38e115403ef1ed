import TreeShell.Proofs.Store.Change
import TreeShell.Snapshot.Basic

/-!
# Restoring a snapshot

A snapshot may spell its paths in any way. What is restored, if anything, satisfies the invariant of
the file tree; a tree that satisfies it comes back from its own snapshot.

* `gather_ok`: which entries are gathered, and which of them stays where paths coincide.
* `restore_error`: **which snapshots are refused.**
* `restore_keeps`: a restored tree satisfies the invariant.
* `restore_ofTree`: **restoring the snapshot of a tree gives the tree.**
* `Reached`: the trees that any sequence of requests can bring about, `Reached.ok` their invariant.
* `reached_sound`: **what holds of all of them.**
-/

namespace TreeShell

open TreeShell.Path Store

namespace Snapshot

variable {t u v : Tree} {l : List (String × Entry)} {key : String}

/-- What a list of entries leaves at a canonical path: the entry of the last spelling of it. -/
def lastOf? (l : List (String × Entry)) (q : String) : Option Entry :=
  (l.reverse.find? fun x => canonical x.1 = q).map Prod.snd

theorem lastOf?_cons (x : String × Entry) (l : List (String × Entry)) (q : String) :
    lastOf? (x :: l) q = (lastOf? l q).or (if canonical x.1 = q then some x.2 else none) := by
  unfold lastOf?
  rw [List.reverse_cons, List.find?_append]
  cases l.reverse.find? fun x => canonical x.1 = q with
  | some y => rfl
  | none => by_cases h : canonical x.1 = q <;> simp [h]

/-- **What is gathered.** Entries at the root have to be directories; elsewhere the last entry of a
path stays. -/
theorem gather_ok : gather u l = .ok v ↔
    (∀ x ∈ l, canonical x.1 = "/" → x.2 = .dir) ∧
      ∀ q, v.get? q = if q = "/" then u.get? q else (lastOf? l q).or (u.get? q) := by
  induction l generalizing u with
  | nil =>
    simp only [gather, Except.ok.injEq, List.not_mem_nil, false_implies, implies_true, true_and]
    constructor
    · rintro rfl q; simp [lastOf?]
    · intro h; refine Tree.ext_get? fun q => ?_
      rw [h q]; simp [lastOf?]
  | cons x l ih =>
    obtain ⟨p, e⟩ := x
    simp only [gather, List.forall_mem_cons]
    by_cases hr : canonical p = "/"
    · rw [if_pos hr]
      by_cases he : e = .dir
      · rw [if_pos he, ih]
        refine and_congr (by simp [he]) (forall_congr' fun q => ?_)
        by_cases hq : q = "/"
        · simp [hq]
        · rw [if_neg hq, if_neg hq, lastOf?_cons, hr, if_neg (Ne.symm hq), Option.or_none]
      · rw [if_neg he]
        constructor
        · intro h; cases h
        · rintro ⟨⟨h, -⟩, -⟩; exact absurd (h hr) he
    · rw [if_neg hr, ih]
      -- what is bound first is seen only where no later spelling is found
      refine and_congr (by simp [hr]) (forall_congr' fun q => ?_)
      by_cases hq : q = "/"
      · subst hq; simp [hr]
      · rw [if_neg hq, if_neg hq, lastOf?_cons, Tree.get?_bind]
        cases lastOf? l q with
        | some e' => simp
        | none => by_cases hc : canonical p = q <;> simp [hc]

theorem misplaced?_eq_none :
    misplaced? t key = none ↔ ∀ d, parent? key = some d → t.get? d = some .dir := by
  unfold misplaced?
  cases hp : parent? key with
  | none => simp
  | some d =>
    simp only [Option.some.injEq, forall_eq']
    cases hd : t.get? d with
    | none => simp
    | some e => cases e <;> simp

theorem settle_ok {keys : List String} :
    settle t keys = .ok u ↔ t = u ∧ ∀ key ∈ keys, misplaced? t key = none := by
  unfold settle
  cases h : keys.findSome? (misplaced? t) with
  | some f =>
    obtain ⟨key, hk, hf⟩ := List.exists_of_findSome?_eq_some h
    constructor
    · intro h; cases h
    · rintro ⟨-, hn⟩; rw [hn key hk] at hf; cases hf
  | none =>
    rw [List.findSome?_eq_none_iff] at h
    simpa using fun _ => h

theorem restore_ok {s : Snapshot} : s.restore = .ok t ↔
    gather .empty s.entries.toList = .ok t ∧
      ∀ key d, (t.get? key).isSome → parent? key = some d → t.get? d = some .dir := by
  unfold restore
  cases hg : gather .empty s.entries.toList with
  | error f => simp
  | ok u =>
    simp only [settle_ok, Except.ok.injEq, Tree.mem_keys, misplaced?_eq_none]
    constructor
    · rintro ⟨rfl, h⟩; exact ⟨rfl, fun key d hk hp => h key hk d hp⟩
    · rintro ⟨rfl, h⟩; exact ⟨rfl, fun key hk d hp => h key d hk hp⟩

theorem gather_total (h : ∀ x ∈ l, canonical x.1 = "/" → x.2 = .dir) : ∃ v, gather u l = .ok v := by
  induction l generalizing u with
  | nil => exact ⟨u, rfl⟩
  | cons x l ih =>
    obtain ⟨p, e⟩ := x
    have hl := fun y hy => h y (List.mem_cons_of_mem (p, e) hy)
    unfold gather
    by_cases hr : canonical p = "/"
    · rw [if_pos hr, if_pos (h (p, e) List.mem_cons_self hr)]
      exact ih hl
    · rw [if_neg hr]
      exact ih hl

/-- What stands at a path once the entries are put in their places. -/
def placed? (s : Snapshot) (q : String) : Option Entry :=
  if q = "/" then some .dir else lastOf? s.entries.toList q

theorem get?_gather {s : Snapshot} (h : gather .empty s.entries.toList = .ok t) (q : String) :
    t.get? q = s.placed? q := by
  rw [(gather_ok.1 h).2 q]
  unfold placed?
  by_cases hr : q = "/"
  · rw [if_pos hr, if_pos hr, hr, Tree.get?_empty, if_pos rfl]
  · rw [if_neg hr, if_neg hr, Tree.get?_empty, if_neg (Ne.symm hr), Option.or_none]

/-- **A snapshot is refused** if its root is a file, or if one of its entries does not lie in a
directory, and for no other reason. -/
theorem restore_error {s : Snapshot} : (∃ f, s.restore = .error f) ↔
    (∃ p c, (p, .file c) ∈ s.entries.toList ∧ canonical p = "/") ∨
      ∃ q d, (s.placed? q).isSome ∧ parent? q = some d ∧ s.placed? d ≠ some .dir := by
  constructor
  · rintro ⟨f, hf⟩
    by_cases hroot : ∃ p c, (p, .file c) ∈ s.entries.toList ∧ canonical p = "/"
    · exact .inl hroot
    by_cases hplace : ∃ q d, (s.placed? q).isSome ∧ parent? q = some d ∧ s.placed? d ≠ some .dir
    · exact .inr hplace
    -- nothing is wrong with the entries, so there is a tree
    have hdir : ∀ x ∈ s.entries.toList, canonical x.1 = "/" → x.2 = .dir := by
      rintro ⟨p, e⟩ hx hr
      cases e with
      | dir => rfl
      | file c => exact absurd ⟨p, c, hx, hr⟩ hroot
    obtain ⟨t, ht⟩ := gather_total (u := .empty) hdir
    have hok : s.restore = .ok t := by
      refine restore_ok.2 ⟨ht, fun q d hq hd => ?_⟩
      rw [get?_gather ht] at hq ⊢
      exact Classical.byContradiction fun hne => hplace ⟨q, d, hq, hd, hne⟩
    rw [hok] at hf
    cases hf
  · intro hbad
    cases hs : s.restore with
    | error f => exact ⟨f, rfl⟩
    | ok t =>
      obtain ⟨hg, hparent⟩ := restore_ok.1 hs
      rcases hbad with ⟨p, c, hx, hr⟩ | ⟨q, d, hq, hd, hne⟩
      · have hdir := (gather_ok.1 hg).1 (p, .file c) hx hr
        cases hdir
      · rw [← get?_gather hg] at hq hne
        exact absurd (hparent q d hq hd) hne

/-- **A restored tree** satisfies the invariant. -/
theorem restore_keeps {s : Snapshot} (h : s.restore = .ok t) : TreeOK t := by
  obtain ⟨hg, hp⟩ := restore_ok.1 h
  obtain ⟨-, hv⟩ := gather_ok.1 hg
  refine ⟨?_, ?_, hp⟩
  · rw [hv, if_pos rfl, Tree.get?_empty, if_pos rfl]
  · intro key hk
    rw [hv] at hk
    split at hk
    · rename_i hr; subst hr; exact canonical_root
    rename_i hr
    rw [Tree.get?_empty, if_neg (Ne.symm hr), Option.or_none] at hk
    -- the key is the canonical path of some spelling
    unfold lastOf? at hk
    rw [Option.isSome_map] at hk
    obtain ⟨x, hx⟩ := Option.isSome_iff_exists.1 hk
    have hc : canonical x.1 = key := by simpa using List.find?_some hx
    rw [← hc]; exact canonical_canonical x.1

/-- In a tree every path has one spelling. -/
theorem lastOf?_entries (ht : TreeOK t) (q : String) : lastOf? t.entries q = t.get? q := by
  unfold lastOf?
  cases hf : t.entries.reverse.find? fun x => canonical x.1 = q with
  | some x =>
    have hx : canonical x.1 = q := by simpa using List.find?_some hf
    have hm := Tree.mem_entries.1 (List.mem_reverse.1 (List.mem_of_find?_eq_some hf))
    have hk := ht.canon x.1 (Option.isSome_of_eq_some hm)
    rw [← hx, hk, hm]; rfl
  | none =>
    rw [List.find?_eq_none] at hf
    cases hq : t.get? q with
    | none => rfl
    | some e =>
      have := hf (q, e) (List.mem_reverse.2 (Tree.mem_entries.2 hq))
      simp [ht.canon q (Option.isSome_of_eq_some hq)] at this

/-- **Restoring the snapshot of a tree gives the tree.** -/
theorem restore_ofTree (ht : TreeOK t) : (ofTree t).restore = .ok t := by
  have he : (ofTree t).entries.toList = t.entries := rfl
  rw [restore_ok, he, gather_ok]
  refine ⟨⟨?_, ?_⟩, ht.parent⟩
  · intro x hx hr
    have hm := Tree.mem_entries.1 hx
    rw [← ht.canon x.1 (Option.isSome_of_eq_some hm), hr, ht.root] at hm
    exact (Option.some.inj hm).symm
  · intro q
    rw [lastOf?_entries ht, Tree.get?_empty]
    by_cases hr : q = "/"
    · rw [if_pos hr, if_pos hr.symm, hr]; exact ht.root
    · rw [if_neg hr, if_neg (Ne.symm hr), Option.or_none]

end Snapshot

/-- **The trees that can come about**: the empty one and those restored from snapshots, and what any
requests make of them, failing ones included. -/
inductive Reached : Tree → Prop
  | empty : Reached .empty
  | restored {s : Snapshot} {t : Tree} (h : s.restore = .ok t) : Reached t
  | asked {t : Tree} (r : Request) (h : Reached t) : Reached (r.ask t).2

theorem Reached.ok {t : Tree} (h : Reached t) : TreeOK t := by
  induction h with
  | empty => exact empty_ok
  | restored h => exact Snapshot.restore_keeps h
  | asked r _ ih => exact ask_ok ih r

/-- **Every tree that can come about is sound.** The root is a directory, every key is canonical and
spelled as such, and the parent of every key but the root is a directory. -/
theorem reached_sound {t : Tree} (h : Reached t) :
    t.get? "/" = some .dir ∧
      (∀ key, (t.get? key).isSome → canonical key = key ∧ Spelled key) ∧
      ∀ key, (t.get? key).isSome → key ≠ "/" →
        ∃ d, parent? key = some d ∧ t.get? d = some .dir := by
  have ht := h.ok
  refine ⟨ht.root, fun key hk => ⟨ht.canon key hk, spelled_of_canonical (ht.canon key hk)⟩, ?_⟩
  intro key hk hne
  obtain ⟨d, hp⟩ := exists_parent? (ht.canon key hk) hne
  exact ⟨d, hp, ht.parent key d hk hp⟩

/-- A directory, and two spellings of a file in it. -/
def respelled : Snapshot :=
  ⟨1, Std.ExtTreeMap.ofList
    [("a\\b", Entry.file "x"), ("//a/", Entry.dir), ("/a/./b", Entry.file "y")]⟩

/-- The tree restored from `respelled`, after a file has been written and a directory has been
kept from deletion. -/
theorem reached_sound_respelled : ∃ t, Reached t ∧
    t.entries = [("/", Entry.dir), ("/a", Entry.dir), ("/a/b", Entry.file "x"), ("/c", Entry.dir),
      ("/c/d", Entry.file "z")] ∧
    t.get? "/" = some .dir ∧ (canonical "/c/d" = "/c/d" ∧ Spelled "/c/d") ∧
      ∃ d, parent? "/c/d" = some d ∧ t.get? d = some .dir := by
  have hr := Reached.asked (.deleteDirectory "a")
    (.asked (.write "//c\\d" "z") (.restored (s := respelled) rfl))
  obtain ⟨hroot, hcanon, hparent⟩ := reached_sound hr
  exact ⟨_, hr, rfl, hroot, hcanon "/c/d" rfl, hparent "/c/d" rfl (by decide)⟩

end TreeShell
