import Mathlib.Data.List.Nodup
import Mathlib.Data.List.Perm.Subperm
import TreeShell.Proofs.Store.Change
import TreeShell.Proofs.Store.Listing

/-!
# Walking through a tree

A walk lists a directory and goes down into each name it is given, one slash and the name put behind
the path it has come by.

* `Tree.walk`: the paths that a walk visits.
* `Covers`: what lies at a path and below, visited once.
* `walk_covers`: from a path, a walk that is let down far enough visits what lies there and below.
* `walk_visits`: **a walk from the root visits every entry once**, and no directory lists a name that
  is no name.
-/

namespace TreeShell.Store

open TreeShell.Path

/-- The paths that a walk visits which starts at `path` and goes down less than so many levels;
`none` if that is not far enough. -/
def Tree.walk (t : Tree) : Nat → String → Option (List String)
  | 0, _ => none
  | depth + 1, path =>
    match t.list path with
    | .error _ => some [path]
    | .ok names => do
      let below ← names.mapM fun name => t.walk depth (path ++ "/" ++ name)
      return path :: below.flatten

variable {t : Tree} {cs ds : List String} {path x : String} {visited : List String}

/-! ## One directory -/

theorem list_of_dir (h : t.get? (canonical path) = some .dir) :
    t.list path = .ok (t.names (canonical path)) := by
  unfold Tree.list
  simp only [h]
  rfl

theorem list_of_file {s : String} (h : t.get? (canonical path) = some (.file s)) :
    t.list path = .error (.notDirectory (canonical path)) := by
  unfold Tree.list
  simp only [h]

/-- Where each of many questions has an answer, all of them have. -/
theorem mapM_eq_some {α β : Type} {f : α → Option β} {g : α → β} {l : List α}
    (h : ∀ a ∈ l, f a = some (g a)) : l.mapM f = some (l.map g) := by
  induction l with
  | nil => rfl
  | cons a l ih =>
    have ha := h a List.mem_cons_self
    have hl := ih fun b hb => h b (List.mem_cons_of_mem a hb)
    rw [List.mapM_cons, ha, hl]
    rfl

/-- At a directory a walk goes down into each of its names. -/
theorem walk_of_dir {depth : Nat} {below : String → List String}
    (h : t.get? (canonical path) = some .dir)
    (hbelow : ∀ x ∈ t.names (canonical path), t.walk depth (path ++ "/" ++ x) = some (below x)) :
    t.walk (depth + 1) path = some (path :: (t.names (canonical path)).flatMap below) := by
  rw [Tree.walk, list_of_dir h]
  simp only [mapM_eq_some hbelow]
  rfl

theorem walk_of_file {depth : Nat} {s : String} (h : t.get? (canonical path) = some (.file s)) :
    t.walk (depth + 1) path = some [path] := by
  rw [Tree.walk, list_of_file h]

/-! ## What lies at a path and below -/

/-- The paths are those of the entries at `cs` and below, each of them once. -/
structure Covers (t : Tree) (cs : List String) (visited : List String) : Prop where
  once : (visited.map parts).Nodup
  exact : ∀ ds, ds ∈ visited.map parts ↔ cs <+: ds ∧ PartsOK ds ∧ (t.get? (ofParts ds)).isSome

/-- Two names that stand at the same place of a path are one. -/
theorem eq_of_concat_isPrefix {y : String} (hx : cs ++ [x] <+: ds) (hy : cs ++ [y] <+: ds) :
    x = y := by
  obtain ⟨rest, rfl⟩ := hx
  rw [List.append_assoc, List.prefix_append_right_inj, List.singleton_append,
    List.cons_prefix_cons] at hy
  exact hy.1.symm

theorem covers_file (ht : TreeOK t) {s : String} (hf : t.get? (ofParts (parts path)) = some (.file s)) :
    Covers t (parts path) [path] := by
  refine ⟨List.nodup_singleton _, fun ds => ?_⟩
  rw [List.map_singleton, List.mem_singleton]
  constructor
  · rintro rfl
    exact ⟨List.prefix_rfl, partsOK_parts path, Option.isSome_of_eq_some hf⟩
  · rintro ⟨hpre, hd, hsome⟩
    by_contra hne
    -- nothing lies below a file
    have habove : ofParts (parts path) ∈ ancestors (ofParts ds) :=
      (mem_ancestors hd).2 ⟨_, hpre, Ne.symm hne, rfl⟩
    exact ht.below_file hf hsome habove

/-- A directory is followed by what lies at each of its names and below. -/
theorem covers_dir (ht : TreeOK t) (hdir : t.get? (ofParts (parts path)) = some .dir)
    {below : String → List String}
    (hbelow : ∀ x ∈ t.names (canonical path), Covers t (parts path ++ [x]) (below x)) :
    Covers t (parts path) (path :: (t.names (canonical path)).flatMap below) := by
  have hcs := partsOK_parts path
  have hnames : ∀ x, x ∈ t.names (canonical path) ↔ _ := fun x => mem_names ht.canon hcs
  have hmap : ((t.names (canonical path)).flatMap below).map parts =
      (t.names (canonical path)).flatMap fun x => (below x).map parts := List.map_flatMap
  constructor
  · rw [List.map_cons, hmap, List.nodup_cons]
    refine ⟨fun hself => ?_, List.nodup_flatMap.2 ⟨fun x hx => (hbelow x hx).once, ?_⟩⟩
    · obtain ⟨x, hx, hself⟩ := List.mem_flatMap.1 hself
      have hle := (((hbelow x hx).exact _).1 hself).1.length_le
      rw [List.length_append, List.length_singleton] at hle
      omega
    · refine (names_sorted ht.canon hcs).imp_of_mem fun {x y} hx hy hlt => ?_
      intro ds hdx hdy
      have hpx := (((hbelow x hx).exact ds).1 hdx).1
      have hpy := (((hbelow y hy).exact ds).1 hdy).1
      exact String.ne_of_lt hlt (eq_of_concat_isPrefix hpx hpy)
  · intro ds
    rw [List.map_cons, hmap, List.mem_cons, List.mem_flatMap]
    constructor
    · rintro (rfl | ⟨x, hx, hd⟩)
      · exact ⟨List.prefix_rfl, hcs, Option.isSome_of_eq_some hdir⟩
      · obtain ⟨hpre, hd, hsome⟩ := ((hbelow x hx).exact ds).1 hd
        exact ⟨(List.prefix_append _ _).trans hpre, hd, hsome⟩
    · rintro ⟨⟨rest, rfl⟩, hd, hsome⟩
      cases rest with
      | nil => exact .inl (List.append_nil _)
      | cons x rest =>
        -- the first name on the way down is one of the directory
        have hpre : parts path ++ [x] <+: parts path ++ x :: rest := by
          rw [List.prefix_append_right_inj, List.cons_prefix_cons]
          exact ⟨rfl, List.nil_prefix⟩
        have hx : PartsOK (parts path ++ [x]) := partsOK_of_isPrefix hd hpre
        have hstands : (t.get? (ofParts (parts path ++ [x]))).isSome := by
          by_cases hlast : parts path ++ [x] = parts path ++ x :: rest
          · rw [hlast]
            exact hsome
          · have habove := (mem_ancestors hd).2 ⟨_, hpre, hlast, rfl⟩
            exact Option.isSome_of_eq_some (ht.above hsome habove)
        have hmem : x ∈ t.names (canonical path) :=
          (hnames x).2 ⟨(partsOK_append.1 hx).2 x List.mem_cons_self, hstands⟩
        exact .inr ⟨x, hmem, ((hbelow x hmem).exact _).2 ⟨hpre, hd, hsome⟩⟩

/-! ## The walk -/

/-- **From a path a walk visits what lies there and below**, once it is let down far enough. The
induction is on how far that is. -/
theorem walk_covers (ht : TreeOK t) {depth : Nat} (hpath : (t.get? (canonical path)).isSome)
    (hdeep : ∀ ds, PartsOK (parts path ++ ds) → (t.get? (ofParts (parts path ++ ds))).isSome →
      ds.length < depth) :
    ∃ visited, (∀ n, depth ≤ n → t.walk n path = some visited) ∧ Covers t (parts path) visited := by
  induction depth generalizing path with
  | zero =>
    have hself := hdeep [] (by rw [List.append_nil]; exact partsOK_parts path)
      (by rw [List.append_nil]; exact hpath)
    exact absurd hself (Nat.not_lt_zero _)
  | succ depth ih =>
    obtain ⟨e, he⟩ := Option.isSome_iff_exists.1 hpath
    cases e with
    | file s =>
      refine ⟨[path], fun n hn => ?_, covers_file ht he⟩
      obtain ⟨n, rfl⟩ := Nat.exists_eq_add_of_le' hn
      exact walk_of_file he
    | dir =>
      have hgo : ∀ x, x ∈ t.names (canonical path) → ∃ visited,
          (∀ n, depth ≤ n → t.walk n (path ++ "/" ++ x) = some visited) ∧
            Covers t (parts path ++ [x]) visited := by
        intro x hx
        obtain ⟨hname, hstands⟩ := (mem_names ht.canon (partsOK_parts path)).1 hx
        have hparts : parts (path ++ "/" ++ x) = parts path ++ [x] := by
          rw [parts_join, parts_name hname]
        rw [← hparts] at hstands ⊢
        refine ih hstands fun ds hds hsome => ?_
        rw [hparts, List.append_assoc] at hds hsome
        exact Nat.lt_of_succ_lt_succ (hdeep ([x] ++ ds) hds hsome)
      choose! below hwalk hcovers using hgo
      refine ⟨_, fun n hn => ?_, covers_dir ht he hcovers⟩
      obtain ⟨m, rfl⟩ : ∃ m, n = m + 1 := ⟨n - 1, by omega⟩
      exact walk_of_dir he fun x hx => hwalk x hx m (Nat.le_of_succ_le_succ hn)

/-- **No path is longer than a tree is large**: all that stands above an entry is in the tree, too. -/
theorem length_lt_keys (ht : TreeOK t) (hd : PartsOK ds) (hsome : (t.get? (ofParts ds)).isSome) :
    ds.length < t.keys.length := by
  have hkeys : ofParts ds :: ancestors (ofParts ds) ⊆ t.keys := by
    intro key hkey
    rw [Tree.mem_keys]
    rcases List.mem_cons.1 hkey with rfl | habove
    · exact hsome
    · exact Option.isSome_of_eq_some (ht.above hsome habove)
  have hle := ((ancestors_nodup (ofParts ds)).subperm hkeys).length_le
  rw [List.length_cons, length_ancestors hd] at hle
  exact hle

/-- **A walk from the root visits every entry once**, and nothing else; it need not be let down
further than the tree is large. And the names that a directory lists are names, in code point order
and each of them once. -/
theorem walk_visits (ht : TreeOK t) :
    (∃ visited, (∀ n, t.keys.length ≤ n → t.walk n "/" = some visited) ∧
      (visited.map canonical).Nodup ∧
      ∀ key, key ∈ visited.map canonical ↔ (t.get? key).isSome) ∧
    ∀ path, t.get? (canonical path) = some .dir → ∃ names, t.list path = .ok names ∧
      names.Pairwise (· < ·) ∧ ∀ x ∈ names, x ≠ "" ∧ '/' ∉ x.toList ∧ '\\' ∉ x.toList := by
  constructor
  · have hroot : parts "/" = [] := by decide
    have hstands : (t.get? (canonical "/")).isSome := by
      rw [canonical_root]
      exact Option.isSome_of_eq_some ht.root
    obtain ⟨visited, hwalk, hcovers⟩ := walk_covers ht hstands fun ds hds hsome => by
      rw [hroot, List.nil_append] at hds hsome
      exact length_lt_keys ht hds hsome
    have hmap : visited.map canonical = (visited.map parts).map ofParts := by
      rw [List.map_map]
      rfl
    rw [hroot] at hcovers
    refine ⟨visited, hwalk, ?_, fun key => ?_⟩
    · rw [hmap]
      refine hcovers.once.map_on fun cs hcs ds hds heq => ?_
      have hc := ((hcovers.exact cs).1 hcs).2.1
      have hd := ((hcovers.exact ds).1 hds).2.1
      exact (ofParts_inj hc hd).1 heq
    · rw [hmap, List.mem_map]
      constructor
      · rintro ⟨ds, hds, rfl⟩
        exact ((hcovers.exact ds).1 hds).2.2
      · intro hsome
        obtain ⟨ds, hd, rfl⟩ := canonical_eq_self_iff.1 (ht.canon key hsome)
        exact ⟨ds, (hcovers.exact ds).2 ⟨List.nil_prefix, hd, hsome⟩, rfl⟩
  · intro path hdir
    have hcs := partsOK_parts path
    refine ⟨_, list_of_dir hdir, names_sorted ht.canon hcs, fun x hx => ?_⟩
    obtain ⟨hname, -⟩ := (mem_names ht.canon hcs).1 hx
    refine ⟨?_, hname.slash, hname.backslash⟩
    rintro rfl
    exact hname.ne_nil rfl

/-- A tree in which the text of one path begins that of another it has nothing to do with. -/
def thicket : Tree :=
  ((Request.write "/ab" "x").ask ((Request.write "/a/b/c" "y").ask Tree.empty).2).2

/-- A walk through it comes by each entry once, and `/ab` is not taken for an entry of `/a`. -/
theorem walk_visits_thicket :
    let visited := ["/", "//a", "//a/b", "//a/b/c", "//ab"]
    TreeOK thicket ∧ thicket.walk 5 "/" = some visited ∧ (visited.map canonical).Nodup ∧
      (∀ key, key ∈ visited.map canonical ↔ (thicket.get? key).isSome) ∧
      thicket.list "\\a/." = .ok ["b"] ∧ '/' ∉ "b".toList := by
  have ht : TreeOK thicket := ask_ok (ask_ok empty_ok _) _
  obtain ⟨⟨visited, hwalk, honce, hall⟩, hlist⟩ := walk_visits ht
  have hfive : thicket.walk 5 "/" = some visited := hwalk 5 (Nat.le_refl 5)
  obtain rfl : ["/", "//a", "//a/b", "//a/b/c", "//ab"] = visited := Option.some.inj hfive
  obtain ⟨names, hnames, -, hsound⟩ := hlist "\\a/." rfl
  obtain rfl : ["b"] = names := Except.ok.inj hnames
  exact ⟨ht, hfive, honce, hall, hnames, (hsound "b" List.mem_cons_self).2.1⟩

end TreeShell.Store
