import TreeShell.Proofs.Snapshot.Restore

/-!
# Which snapshots are restored, and what of them

The paths of a snapshot come in any spelling, so several entries can meet at one place.

* `LastAt`: which of the entries that meet stays. `placed?_eq_some`: that is the one placed there.
* `restoreBy`: restoring with the paths looked at in any order; `restore` takes them in code point
  order.
* `restoreBy_iff`: **which snapshots are restored, to which tree, and why the others are refused**,
  whatever the order.
* `restored_iff`: **which entries are found again** in the restored tree. Of entries that meet and
  differ only one is, and nothing reports the others.
-/

namespace TreeShell.Snapshot

open TreeShell.Path Store

variable {s : Snapshot} {t : Tree} {q key : String} {e : Entry} {f : Fault}
  {order : Tree → List String}

/-! ## Entries that meet -/

/-- Of the entries whose paths lead to `q`, the last one in code point order is `e`. -/
def LastAt (s : Snapshot) (q : String) (e : Entry) : Prop :=
  ∃ key, s.entries[key]? = some e ∧ canonical key = q ∧
    ∀ other, (s.entries[other]?).isSome → canonical other = q → other ≤ key

/-- Entries that meet are the same. -/
def Agreed (s : Snapshot) : Prop :=
  ∀ key key' e e', s.entries[key]? = some e → s.entries[key']? = some e' →
    canonical key = canonical key' → e = e'

theorem mem_toList : (key, e) ∈ s.entries.toList ↔ s.entries[key]? = some e :=
  Std.ExtTreeMap.mem_toList_iff_getElem?_eq_some

theorem LastAt.unique {e' : Entry} (h : s.LastAt q e) (h' : s.LastAt q e') : e = e' := by
  obtain ⟨key, he, hq, hlast⟩ := h
  obtain ⟨key', he', hq', hlast'⟩ := h'
  have hkey : key = key' := by
    refine String.le_antisymm ?_ ?_
    · exact hlast' key (Option.isSome_of_eq_some he) hq
    · exact hlast key' (Option.isSome_of_eq_some he') hq'
  rw [hkey, he'] at he
  exact (Option.some.inj he).symm

/-- What is found last among the entries is the last one in code point order. -/
theorem LastAt.of_lastOf? (h : lastOf? s.entries.toList q = some e) : s.LastAt q e := by
  unfold lastOf? at h
  obtain ⟨⟨key, _⟩, hfind, rfl⟩ := Option.map_eq_some_iff.1 h
  obtain ⟨hq, later, earlier, hcut, hlater⟩ := List.find?_eq_some_iff_append.1 hfind
  have hmem := List.mem_reverse.1 (List.mem_of_find?_eq_some hfind)
  -- read from the end, the entries are in descending order
  have hsorted : s.entries.toList.reverse.Pairwise fun a b => b.1 < a.1 := by
    rw [List.pairwise_reverse]
    exact s.entries.ordered_keys_toList.imp fun h => compareOfLessAndEq_eq_lt.1 h
  rw [hcut, List.pairwise_append, List.pairwise_cons] at hsorted
  refine ⟨key, mem_toList.1 hmem, by simpa using hq, fun other hother hoq => ?_⟩
  obtain ⟨e', he'⟩ := Option.isSome_iff_exists.1 hother
  have hin : (other, e') ∈ s.entries.toList.reverse := List.mem_reverse.2 (mem_toList.2 he')
  rw [hcut] at hin
  rcases List.mem_append.1 hin with hin | hin
  · have hne := hlater _ hin
    simp [hoq] at hne
  · rcases List.mem_cons.1 hin with heq | hin
    · obtain rfl := (Prod.mk.inj heq).1
      exact String.le_refl _
    · exact String.not_lt.1 (String.lt_asymm (hsorted.2.1.1 _ hin))

theorem lastOf?_isSome (he : s.entries[key]? = some e) (hq : canonical key = q) :
    ∃ e', lastOf? s.entries.toList q = some e' := by
  unfold lastOf?
  have hfound : (s.entries.toList.reverse.find? fun x => canonical x.1 = q).isSome := by
    refine List.find?_isSome.2 ⟨(key, e), List.mem_reverse.2 (mem_toList.2 he), ?_⟩
    exact decide_eq_true hq
  obtain ⟨x, hx⟩ := Option.isSome_iff_exists.1 hfound
  exact ⟨x.2, by rw [hx]; rfl⟩

theorem lastOf?_eq_some : lastOf? s.entries.toList q = some e ↔ s.LastAt q e := by
  constructor
  · exact LastAt.of_lastOf?
  · intro h
    obtain ⟨key, he, hq, -⟩ := id h
    obtain ⟨e', he'⟩ := lastOf?_isSome he hq
    rw [he', h.unique (.of_lastOf? he')]

/-- Of the entries that meet one is the last. -/
theorem exists_lastAt (he : s.entries[key]? = some e) : ∃ key' e', s.LastAt (canonical key) e' ∧
    s.entries[key']? = some e' ∧ canonical key' = canonical key := by
  obtain ⟨e', he'⟩ := lastOf?_isSome he rfl
  have hlast := LastAt.of_lastOf? he'
  obtain ⟨key', hkey', hc, -⟩ := id hlast
  exact ⟨key', e', hlast, hkey', hc⟩

/-- **Away from the root the last of the entries that meet is placed.** -/
theorem placed?_eq_some (hq : q ≠ "/") : s.placed? q = some e ↔ s.LastAt q e := by
  unfold placed?
  rw [if_neg hq, lastOf?_eq_some]

/-- A path with something placed at it is spelled as the store does. -/
theorem canonical_of_placed? (h : (s.placed? q).isSome) : canonical q = q := by
  by_cases hq : q = "/"
  · rw [hq, canonical_root]
  · obtain ⟨e, he⟩ := Option.isSome_iff_exists.1 h
    obtain ⟨key, -, hkey, -⟩ := (placed?_eq_some hq).1 he
    rw [← hkey, canonical_canonical]

/-! ## Restoring in any order -/

/-- The tree of a snapshot, whose paths are looked at in the given order. Of several misplaced
entries the first is named. -/
def restoreBy (order : Tree → List String) (s : Snapshot) : Except Fault Tree :=
  match gather .empty s.entries.toList with
  | .error f => .error f
  | .ok t => settle t (order t)

/-- Every entry at the root is a directory. -/
def Rooted (s : Snapshot) : Prop :=
  ∀ key e, s.entries[key]? = some e → canonical key = "/" → e = .dir

/-- Every entry that is placed away from the root lies in a directory. -/
def Housed (s : Snapshot) : Prop :=
  ∀ q, q ≠ "/" → (s.placed? q).isSome → ∃ d, parent? q = some d ∧ s.placed? d = some .dir

/-- What can be wrong with the place of an entry: its parent is missing, or is a file. -/
inductive Misplaces (s : Snapshot) : Fault → Prop
  | missing {q d : String} (hq : (s.placed? q).isSome) (hd : parent? q = some d)
      (hnone : s.placed? d = none) : Misplaces s (.notFound d)
  | inFile {q d c : String} (hq : (s.placed? q).isSome) (hd : parent? q = some d)
      (hfile : s.placed? d = some (.file c)) : Misplaces s (.notDirectory d)

theorem gather_error {u : Tree} {l : List (String × Entry)} (h : gather u l = .error f) :
    f = .invalidArgument "snapshot root is not a directory" ∧
      ∃ x ∈ l, canonical x.1 = "/" ∧ x.2 ≠ .dir := by
  induction l generalizing u with
  | nil => cases h
  | cons x l ih =>
    obtain ⟨p, e⟩ := x
    have hrest : ∀ {u : Tree}, gather u l = .error f →
        f = .invalidArgument "snapshot root is not a directory" ∧
          ∃ x ∈ (p, e) :: l, canonical x.1 = "/" ∧ x.2 ≠ .dir := by
      intro u hu
      obtain ⟨hf, x, hx, hbad⟩ := ih hu
      exact ⟨hf, x, List.mem_cons_of_mem _ hx, hbad⟩
    unfold gather at h
    simp only at h
    split at h
    · rename_i hroot
      split at h
      · exact hrest h
      · rename_i hfile
        exact ⟨(Except.error.inj h).symm, (p, e), List.mem_cons_self, hroot, hfile⟩
    · exact hrest h

theorem gather_rooted (h : gather .empty s.entries.toList = .ok t) : s.Rooted :=
  fun key e he hroot => (gather_ok.1 h).1 (key, e) (mem_toList.2 he) hroot

theorem exists_gather (h : s.Rooted) : ∃ t, gather .empty s.entries.toList = .ok t :=
  gather_total fun x hx hroot => h x.1 x.2 (mem_toList.1 hx) hroot

theorem misplaced?_eq_some (hplaced : ∀ q, t.get? q = s.placed? q) (hkey : (t.get? key).isSome)
    (h : misplaced? t key = some f) : s.Misplaces f := by
  unfold misplaced? at h
  rw [hplaced] at hkey
  cases hd : parent? key with
  | none => rw [hd] at h; cases h
  | some d =>
    rw [hd] at h
    simp only [hplaced] at h
    cases hp : s.placed? d with
    | none =>
      rw [hp] at h
      cases h
      exact .missing hkey hd hp
    | some e =>
      cases e with
      | dir => rw [hp] at h; cases h
      | file c =>
        rw [hp] at h
        cases h
        exact .inFile hkey hd hp

theorem settle_error {keys : List String} (h : settle t keys = .error f) :
    ∃ key ∈ keys, misplaced? t key = some f := by
  unfold settle at h
  cases hf : keys.findSome? (misplaced? t) with
  | none => rw [hf] at h; cases h
  | some g =>
    rw [hf] at h
    cases h
    exact List.exists_of_findSome?_eq_some hf

theorem restoreBy_ok (horder : ∀ t, (order t).Perm t.keys) : s.restoreBy order = .ok t ↔
    gather .empty s.entries.toList = .ok t ∧ s.Housed := by
  unfold restoreBy
  cases hg : gather .empty s.entries.toList with
  | error f => simp
  | ok u =>
    have hplaced := get?_gather hg
    -- whatever the order, every place is looked at; the root has no parent, and every other one has
    have hhoused : (∀ key ∈ order u, misplaced? u key = none) ↔ s.Housed := by
      simp only [(horder u).mem_iff, Tree.mem_keys, misplaced?_eq_none, hplaced]
      constructor
      · intro h q hq hsome
        obtain ⟨d, hd⟩ := exists_parent? (canonical_of_placed? hsome) hq
        exact ⟨d, hd, h q hsome d hd⟩
      · intro h q hsome d hd
        have hq : q ≠ "/" := by
          rintro rfl
          rw [parent?_root] at hd
          cases hd
        obtain ⟨d', hd', hdir⟩ := h q hq hsome
        rw [hd] at hd'
        cases hd'
        exact hdir
    simp only [settle_ok, hhoused, Except.ok.injEq]

/-- **Which snapshots are restored.** Away from the root, the last of the entries that meet at a
place is placed there; the root is a directory. A snapshot is restored if its entries at the root
are directories and each of the others that is placed lies in one, and then to the tree of what is
placed. Otherwise the fault is that a file is at the root, or names a parent that is missing or a
file. In which order the paths are looked at makes no difference to any of this. -/
theorem restoreBy_iff (horder : ∀ t, (order t).Perm t.keys) (s : Snapshot) :
    s.restoreBy Tree.keys = s.restore ∧
    s.placed? "/" = some .dir ∧
    (∀ q, q ≠ "/" → ∀ e, s.placed? q = some e ↔ s.LastAt q e) ∧
    ((∃ t, s.restoreBy order = .ok t) ↔ s.Rooted ∧ s.Housed) ∧
    (∀ t, s.restoreBy order = .ok t → ∀ q, t.get? q = s.placed? q) ∧
    ∀ f, s.restoreBy order = .error f →
      (¬ s.Rooted → f = .invalidArgument "snapshot root is not a directory") ∧
      (s.Rooted → s.Misplaces f) := by
  refine ⟨rfl, if_pos rfl, fun q hq e => placed?_eq_some hq, ?_, ?_, ?_⟩
  · simp only [restoreBy_ok horder]
    constructor
    · rintro ⟨t, hg, hhoused⟩
      exact ⟨gather_rooted hg, hhoused⟩
    · rintro ⟨hrooted, hhoused⟩
      obtain ⟨t, hg⟩ := exists_gather hrooted
      exact ⟨t, hg, hhoused⟩
  · intro t ht q
    exact get?_gather ((restoreBy_ok horder).1 ht).1 q
  · intro f hf
    unfold restoreBy at hf
    cases hg : gather .empty s.entries.toList with
    | error g =>
      rw [hg] at hf
      cases hf
      obtain ⟨hfault, x, hx, hroot, hfile⟩ := gather_error hg
      exact ⟨fun _ => hfault, fun h => absurd (h x.1 x.2 (mem_toList.1 hx) hroot) hfile⟩
    | ok t =>
      rw [hg] at hf
      obtain ⟨key, hkey, hmisplaced⟩ := settle_error hf
      have hsome := Tree.mem_keys.1 ((horder t).mem_iff.1 hkey)
      exact ⟨fun h => absurd (gather_rooted hg) h,
        fun _ => misplaced?_eq_some (get?_gather hg) hsome hmisplaced⟩

/-- Two entries that lie nowhere: one without a parent, and one whose parent is a file. -/
def strays : Snapshot :=
  ⟨1, Std.ExtTreeMap.ofList
    [("/u/v", Entry.dir), ("x\\y", Entry.dir), ("//x", Entry.dir), ("/x", Entry.file "c")]⟩

/-- From behind, the second of the strays is met first. -/
theorem restoreBy_iff_strays :
    (∀ t : Tree, t.keys.reverse.Perm t.keys) ∧
    strays.restore = .error (.notFound "/u") ∧
    strays.restoreBy (fun t => t.keys.reverse) = .error (.notDirectory "/x") ∧
    strays.Misplaces (.notDirectory "/x") ∧ ¬ strays.Housed := by
  have hfault : strays.restoreBy (fun t => t.keys.reverse) = .error (.notDirectory "/x") := rfl
  obtain ⟨-, -, -, hiff, -, herror⟩ :=
    restoreBy_iff (fun t : Tree => List.reverse_perm t.keys) strays
  have hrooted : strays.Rooted := by
    intro key e he hroot
    have hmem := mem_toList.2 he
    have hall : ∀ x ∈ strays.entries.toList, canonical x.1 = "/" → x.2 = .dir := by decide
    exact hall _ hmem hroot
  refine ⟨fun t => List.reverse_perm t.keys, rfl, hfault, (herror _ hfault).2 hrooted, ?_⟩
  intro hhoused
  obtain ⟨t, ht⟩ := hiff.2 ⟨hrooted, hhoused⟩
  rw [hfault] at ht
  cases ht

/-! ## Entries that are lost -/

/-- In a restored tree the last of the entries that meet is found, also at the root. -/
theorem get?_restored (h : s.restore = .ok t) (he : s.entries[key]? = some e) :
    t.get? (canonical key) = some e ↔ s.LastAt (canonical key) e := by
  obtain ⟨hg, -⟩ := restore_ok.1 h
  rw [get?_gather hg]
  by_cases hroot : canonical key = "/"
  · -- all that meets at the root is a directory, so the last of it is
    have hdir := gather_rooted hg
    obtain ⟨key', e', hlast, hkey', hc⟩ := exists_lastAt he
    rw [hdir key e he hroot]
    rw [hdir key' e' hkey' (hc.trans hroot)] at hlast
    rw [hroot] at hlast ⊢
    exact iff_of_true (if_pos rfl) hlast
  · exact placed?_eq_some hroot

/-- **Which entries are found again.** An entry of a snapshot that is restored stands in the tree at
the place to which its path leads exactly if the last entry there is the same. So nothing is lost
exactly if the entries that meet are the same. -/
theorem restored_iff (h : s.restore = .ok t) :
    (∀ key e, s.entries[key]? = some e →
      (t.get? (canonical key) = some e ↔ s.LastAt (canonical key) e)) ∧
    ((∀ key e, s.entries[key]? = some e → t.get? (canonical key) = some e) ↔ s.Agreed) := by
  refine ⟨fun key e he => get?_restored h he, ?_⟩
  constructor
  · intro hall key key' e e' he he' hc
    have hfound := hall key e he
    rw [hc, hall key' e' he'] at hfound
    exact (Option.some.inj hfound).symm
  · intro hagreed key e he
    rw [get?_restored h he]
    obtain ⟨key', e', hlast, hkey', hc⟩ := exists_lastAt he
    rw [hagreed key key' e e' he hkey' hc.symm]
    exact hlast

/-- A file under two spellings of its path, with a content each. -/
def doubled : Snapshot :=
  ⟨1, Std.ExtTreeMap.ofList [("/a", Entry.file "kept"), ("//a", Entry.file "lost")]⟩

/-- A directory under two spellings, and a file that lies in it. -/
def twice : Snapshot :=
  ⟨1, Std.ExtTreeMap.ofList [("d", Entry.dir), ("/d/", Entry.dir), ("d\\./f", Entry.file "x")]⟩

/-- Nothing is lost of a snapshot in which only equal entries meet. -/
theorem restored_iff_twice : ∃ t, twice.restore = .ok t ∧ twice.Agreed ∧
    t.get? (canonical "d") = some .dir ∧ t.get? (canonical "/d/") = some .dir ∧
    t.get? (canonical "d\\./f") = some (.file "x") := by
  have hagreed : twice.Agreed := by
    intro key key' e e' he he' hc
    have hall : ∀ x ∈ twice.entries.toList, ∀ y ∈ twice.entries.toList,
        canonical x.1 = canonical y.1 → x.2 = y.2 := by decide
    exact hall (key, e) (mem_toList.2 he) (key', e') (mem_toList.2 he') hc
  have hrestore : twice.restore = .ok _ := rfl
  have hfound := (restored_iff hrestore).2.2 hagreed
  exact ⟨_, hrestore, hagreed, hfound "d" .dir rfl, hfound "/d/" .dir rfl,
    hfound "d\\./f" (.file "x") rfl⟩

/-- **An entry can be lost without a word**: one of two contents is gone from the tree, and from the
snapshot that is saved of it. -/
theorem doubled_loses : ∃ t, doubled.restore = .ok t ∧
    doubled.entries["//a"]? = some (.file "lost") ∧
    t.get? (canonical "//a") = some (.file "kept") ∧
    (ofTree t).entries.toList = [("/", .dir), ("/a", .file "kept")] :=
  ⟨_, rfl, rfl, rfl, rfl⟩

end TreeShell.Snapshot
