import TreeShell.Proofs.Store.Change
import TreeShell.Proofs.Store.Listing
import TreeShell.Proofs.Store.Nested

/-!
# The map of paths is a nested tree

The file tree is kept as one map from paths to entries and answers by the text of its keys; a nested
tree (`Node`) answers by walking from name to name. Nobody can tell the two apart.

* `Mirrors`: a tree and a nested tree that see the same entry at every path.
* `ask_mirrors`: one request is answered alike and leaves them as mirrors of each other.
* `run_mirrors`: **so is every sequence of requests**, from the empty trees on.
-/

namespace TreeShell.Store

open TreeShell.Path

/-- A tree and a nested tree that see the same entry at every path. -/
structure Mirrors (t : Tree) (n : Node) : Prop where
  tree : TreeOK t
  node : NodeOK n
  agree : ∀ cs, PartsOK cs → t.get? (ofParts cs) = n.entryAt? cs

variable {t : Tree} {n m : Node} {kids : List (String × Node)} {p c x : String} {cs ps : List String}

theorem root_mirrors : Mirrors .empty .root := by
  refine ⟨empty_ok, root_ok, fun cs hc => ?_⟩
  rw [Tree.get?_empty]
  cases cs with
  | nil => rw [if_pos ofParts_nil.symm, Node.entryAt?_nil]; rfl
  | cons c cs => rw [if_neg (ofParts_ne_root hc (by simp)).symm]; rfl

theorem Mirrors.get? (h : Mirrors t n) (p : String) : t.get? (canonical p) = n.entryAt? (parts p) :=
  h.agree (parts p) (partsOK_parts p)

/-- **Mirrors hold the same entries.** -/
theorem Mirrors.holds (h : Mirrors t n) {key : String} {e : Entry} :
    (key, e) ∈ t.entries ↔ n.Holds key e := by
  rw [Tree.mem_entries]
  constructor
  · intro hk
    obtain ⟨cs, hc, rfl⟩ := canonical_eq_self_iff.1 (h.tree.canon key (Option.isSome_of_eq_some hk))
    rw [h.agree cs hc] at hk
    obtain ⟨m, hm, he⟩ := Option.map_eq_some_iff.1 hk
    exact ⟨cs, m, hm, rfl, he⟩
  · rintro ⟨cs, m, hm, rfl, rfl⟩
    rw [h.agree cs (h.node.at? hm).1]
    exact Node.entryAt?_of_at? hm

/-! ## What both see at a path -/

/-- What the walk to a path ends at, and what the map keeps there. -/
theorem Mirrors.get?_of_at? (h : Mirrors t n) (hm : n.at? (parts p) = some m) :
    t.get? (canonical p) = some m.entry := by
  rw [h.get?]; exact Node.entryAt?_of_at? hm

theorem Mirrors.get?_of_at?_none (h : Mirrors t n) (hm : n.at? (parts p) = none) :
    t.get? (canonical p) = none := by
  rw [h.get?]; exact Node.entryAt?_of_none hm

/-- The way to a path is open in both or in neither. -/
theorem Mirrors.open_iff (h : Mirrors t n) (hp : PartsOK ps) : t.Open (ofParts ps) ↔ n.Open ps := by
  constructor
  · intro ho bs hpre hne s hs
    rw [← h.agree bs (partsOK_of_isPrefix hp hpre)] at hs
    exact ho _ ((mem_ancestors hp).2 ⟨bs, hpre, hne, rfl⟩) s hs
  · intro ho d hd s hs
    obtain ⟨bs, hpre, hne, rfl⟩ := (mem_ancestors hp).1 hd
    rw [h.agree bs (partsOK_of_isPrefix hp hpre)] at hs
    exact ho bs hpre hne s hs

/-! ## Changes -/

/-- **Planting and grafting** do the same where there is nothing yet, or a file. -/
theorem Mirrors.plant (h : Mirrors t n) (hm : NodeOK m) (hb : m.Bare) (hp : PartsOK ps)
    (ho : n.Open ps) (hn : n.entryAt? ps ≠ some .dir) :
    Mirrors (t.plant (ofParts ps) m.entry) (Node.graft m n ps) := by
  have hbelow : ∀ cs, cs ≠ [] → n.entryAt? (ps ++ cs) = none := by
    intro cs hne
    cases ha : n.at? ps with
    | none => exact Node.entryAt?_append_none ha cs
    | some k =>
      rw [Node.entryAt?_append ha]
      cases k with
      | file s => exact Node.file_bare s cs hne
      | dir kids => exact absurd (Node.entryAt?_of_at? ha) hn
  refine ⟨h.tree.plant (canonical_ofParts hp) ?_, h.node.graft hm hp, fun cs hc => ?_⟩
  · intro hd; rw [h.agree ps hp] at hd; exact absurd hd hn
  · rw [get?_plant, Node.entryAt?_graft hb ho hbelow, h.agree cs hc]
    by_cases hcs : cs = ps
    · rw [if_pos hcs, if_pos (by rw [hcs])]
    rw [if_neg hcs, if_neg (mt (ofParts_inj hc hp).1 hcs)]
    have hiff : ofParts cs ∈ ancestors (ofParts ps) ↔ cs <+: ps := by
      rw [mem_ancestors hp]
      constructor
      · rintro ⟨bs, hbp, -, he⟩
        rw [← (ofParts_inj (partsOK_of_isPrefix hp hbp) hc).1 he]; exact hbp
      · intro hcp; exact ⟨cs, hcp, hcs, rfl⟩
    by_cases hcp : cs <+: ps
    · rw [if_pos (hiff.2 hcp), if_pos hcp]
    · rw [if_neg (mt hiff.1 hcp), if_neg hcp]

/-- Below a path are the entries that have it among their ancestors. -/
theorem Mirrors.below (h : Mirrors t n) (hp : PartsOK ps) (hm : n.at? ps = some m) :
    m.Bare ↔ ∀ key, (t.get? key).isSome → ofParts ps ∉ ancestors key := by
  constructor
  · intro hb key hk ha
    obtain ⟨cs, hc, rfl⟩ := canonical_eq_self_iff.1 (h.tree.canon key hk)
    obtain ⟨bs, ⟨ds, rfl⟩, hne, he⟩ := (mem_ancestors hc).1 ha
    obtain rfl := (ofParts_inj (partsOK_append.1 hc).1 hp).1 he
    have hds : ds ≠ [] := by rintro rfl; exact hne (List.append_nil _).symm
    rw [h.agree _ hc, Node.entryAt?_append hm, hb ds hds] at hk
    cases hk
  · intro hno ds hds
    cases he : m.entryAt? ds with
    | none => rfl
    | some e =>
      obtain ⟨k, hk, -⟩ := Option.map_eq_some_iff.1 he
      have ha : n.at? (ps ++ ds) = some k := by rw [Node.at?_append, hm]; exact hk
      have hc := (h.node.at? ha).1
      refine absurd ?_ (hno (ofParts (ps ++ ds)) ?_)
      · exact (mem_ancestors hc).2 ⟨ps, List.prefix_append _ _, by simpa using hds.symm, rfl⟩
      · rw [h.agree _ hc, Node.entryAt?_append hm, he]; rfl

/-- **Taking away and pruning** do the same where nothing lies below. -/
theorem Mirrors.unbind (h : Mirrors t n) (hp : PartsOK ps) (hne : ps ≠ [])
    (hm : n.at? ps = some m) (hb : m.Bare) : Mirrors (t.unbind (ofParts ps)) (n.prune ps) := by
  refine ⟨h.tree.unbind (ofParts_ne_root hp hne) ((h.below hp hm).1 hb), h.node.prune, fun cs hc => ?_⟩
  rw [Tree.get?_unbind, Node.entryAt?_prune hne, h.agree cs hc]
  by_cases hcs : ps = cs
  · subst hcs; rw [if_pos rfl, if_pos (List.prefix_refl _)]
  rw [if_neg (mt (ofParts_inj hp hc).1 hcs)]
  split
  · rename_i hpre
    obtain ⟨ds, rfl⟩ := hpre
    rw [Node.entryAt?_append hm]
    exact hb ds (by rintro rfl; exact hcs (List.append_nil _).symm)
  · rfl

/-! ## One request -/

theorem Mirrors.has (h : Mirrors t n) : t.has p = n.has p := by
  unfold Tree.has Node.has
  rw [h.get?]; exact Option.isSome_map

theorem Mirrors.read (h : Mirrors t n) : t.read p = n.read p := by
  unfold Tree.read Node.read
  cases hm : n.at? (parts p) with
  | none => simp only [h.get?_of_at?_none hm]
  | some m => cases m <;> simp only [h.get?_of_at? hm, Node.entry]

theorem Mirrors.list (h : Mirrors t n) : t.list p = n.list p := by
  unfold Tree.list Node.list
  cases hm : n.at? (parts p) with
  | none => simp only [h.get?_of_at?_none hm]
  | some m =>
    cases m with
    | file s => simp only [h.get?_of_at? hm, Node.entry]
    | dir kids =>
      simp only [h.get?_of_at? hm, Node.entry]
      have hc := partsOK_parts p
      obtain ⟨-, hk⟩ := h.node.at? hm
      cases hk with
      | dir once names _ =>
        refine congrArg Except.ok (eq_mergeSort (names_sorted h.tree.canon hc) once fun x => ?_)
        have hmem := mem_names (x := x) h.tree.canon hc
        refine hmem.trans ?_
        rw [Node.mem_kids hm]
        constructor
        · rintro ⟨hx, hs⟩
          rwa [h.agree _ (partsOK_concat hc hx)] at hs
        · intro hs
          obtain ⟨k, hk, rfl⟩ := List.mem_map.1 ((Node.mem_kids hm).2 hs)
          have hx := names k hk
          refine ⟨hx, ?_⟩
          rwa [h.agree _ (partsOK_concat hc hx)]

/-- Outcomes of one change on both sides: the same fault, or mirrors again. -/
inductive Alike : Except Fault Tree → Except Fault Node → Prop
  | fault (f : Fault) : Alike (.error f) (.error f)
  | changed {t : Tree} {n : Node} (h : Mirrors t n) : Alike (.ok t) (.ok n)

/-- A file on the way stops both. -/
theorem Mirrors.write_blocked (h : Mirrors t n) (hb : n.blocked? (parts p) = some cs) :
    t.write p c = .error (.notDirectory (ofParts cs)) := by
  have hc := partsOK_parts p
  obtain ⟨hpre, hne, s, hs⟩ := Node.blocked?_eq_some hb
  refine write_of_file h.tree (s := s) ((mem_ancestors hc).2 ⟨cs, hpre, hne, rfl⟩) ?_
  rw [h.agree cs (partsOK_of_isPrefix hc hpre), hs]

/-- Where nothing bars the way, both plant the file. -/
theorem Mirrors.write_free (h : Mirrors t n) (hb : n.blocked? (parts p) = none)
    (hn : n.entryAt? (parts p) ≠ some .dir) :
    Alike (t.write p c) (.ok (Node.graft (.file c) n (parts p))) := by
  have hc := partsOK_parts p
  have hopen := Node.blocked?_eq_none hb
  rw [write_of_open h.tree (by rw [h.get?]; exact hn) ((h.open_iff hc).2 hopen)]
  exact .changed (h.plant (.file c) (Node.file_bare c) hc hopen hn)

theorem Mirrors.write (h : Mirrors t n) : Alike (t.write p c) (n.write p c) := by
  unfold Node.write
  cases hm : n.at? (parts p) with
  | none =>
    cases hb : n.blocked? (parts p) with
    | none => exact h.write_free hb (by rw [Node.entryAt?_of_none hm]; simp)
    | some bs => rw [h.write_blocked hb]; exact .fault _
  | some m =>
    cases m with
    | dir kids => rw [write_of_dir (h.get?_of_at? hm)]; exact .fault _
    | file s =>
      cases hb : n.blocked? (parts p) with
      | none => exact h.write_free hb (by rw [Node.entryAt?_of_at? hm]; simp [Node.entry])
      | some bs => rw [h.write_blocked hb]; exact .fault _

theorem Mirrors.create (h : Mirrors t n) (hm : NodeOK m) (hb : m.Bare) :
    Alike (t.create p m.entry) (n.create p m) := by
  have hc := partsOK_parts p
  unfold Tree.create Node.create
  simp only
  cases hq : n.at? (parts p) with
  | some k =>
    rw [h.get?_of_at? hq]; exact .fault _
  | none =>
    rw [h.get?_of_at?_none hq]
    simp only [Option.isSome_none, Bool.false_eq_true, if_false]
    -- there is always a root, so the path has a last name
    rcases List.eq_nil_or_concat (parts p) with hnil | ⟨bs, b, hbs⟩
    · rw [hnil] at hq; cases n <;> cases hq
    rw [List.concat_eq_append] at hbs
    rw [hbs] at hc hq
    have hbc := (partsOK_append.1 hc).1
    have hp : parent? (canonical p) = some (ofParts bs) := by
      unfold canonical; rw [hbs]; exact parent?_concat hc
    have hd := h.agree bs hbc
    rw [hp, hbs, List.dropLast_concat]
    simp only
    cases hk : n.at? bs with
    | none =>
      rw [Node.entryAt?_of_none hk] at hd
      rw [hd]; exact .fault _
    | some k =>
      rw [Node.entryAt?_of_at? hk] at hd
      cases k with
      | file s => rw [hd]; exact .fault _
      | dir kids =>
        have hopen := open_of_parent h.tree hp hd
        have hcan : canonical p = ofParts (bs ++ [b]) := by unfold canonical; rw [hbs]
        rw [hd, ← plant_eq_bind h.tree hp hd]
        rw [hcan] at hopen ⊢
        exact .changed (h.plant hm hb hc ((h.open_iff hc).1 hopen)
          (by rw [Node.entryAt?_of_none hq]; simp))

theorem Mirrors.deleteFile (h : Mirrors t n) : Alike (t.deleteFile p) (n.deleteFile p) := by
  unfold Tree.deleteFile Node.deleteFile
  cases hm : n.at? (parts p) with
  | none => simp only [h.get?_of_at?_none hm]; exact .fault _
  | some m =>
    cases m with
    | dir kids => simp only [h.get?_of_at? hm, Node.entry]; exact .fault _
    | file s =>
      simp only [h.get?_of_at? hm, Node.entry]
      refine .changed (h.unbind (partsOK_parts p) ?_ hm (Node.file_bare s))
      -- the root is a directory
      intro hnil
      have := h.agree [] partsOK_nil
      rw [hnil] at hm
      rw [ofParts_nil, h.tree.root, Node.entryAt?_of_at? hm] at this
      cases this

theorem Mirrors.deleteDirectory (h : Mirrors t n) :
    Alike (t.deleteDirectory p) (n.deleteDirectory p) := by
  have hc := partsOK_parts p
  unfold Tree.deleteDirectory Node.deleteDirectory
  simp only
  have hroot : canonical p = "/" ↔ parts p = [] := ofParts_eq_root hc
  by_cases hr : parts p = []
  · rw [if_pos (hroot.2 hr), if_pos hr]; exact .fault _
  rw [if_neg (mt hroot.1 hr), if_neg hr]
  have hocc := occupied_iff h.tree (canonical_canonical p) (mt hroot.1 hr)
  cases hm : n.at? (parts p) with
  | none => simp only [h.get?_of_at?_none hm]; exact .fault _
  | some m =>
    have hb := h.below hc hm
    cases m with
    | file s => simp only [h.get?_of_at? hm, Node.entry]; exact .fault _
    | dir kids =>
      simp only [h.get?_of_at? hm, Node.entry]
      cases kids with
      | nil =>
        rw [if_neg]
        · exact .changed (h.unbind hc hr hm Node.root_bare)
        · intro ho
          obtain ⟨key, hk, ha⟩ := hocc.1 ho
          exact hb.1 Node.root_bare key hk ha
      | cons x kids =>
        rw [if_pos]
        · exact .fault _
        · -- the first name in the directory leads to something
          cases ho : t.occupied (canonical p) with
          | true => rfl
          | false =>
            have hno : ∀ key, (t.get? key).isSome → canonical p ∉ ancestors key := by
              intro key hk ha
              rw [hocc.2 ⟨key, hk, ha⟩] at ho; cases ho
            have := hb.2 hno [x.1] (by simp)
            rw [Node.entryAt?_dir_cons, List.lookup_cons, beq_self_eq_true] at this
            cases this

/-- An outcome on both sides, taken as an answer. -/
theorem Mirrors.commit (h : Mirrors t n) {r : Except Fault Tree} {r' : Except Fault Node}
    (ha : Alike r r') : (t.commit r).1 = (n.commit r').1 ∧ Mirrors (t.commit r).2 (n.commit r').2 := by
  cases ha with
  | fault f => exact ⟨rfl, h⟩
  | changed h' => exact ⟨rfl, h'⟩

/-- **One request** is answered alike by mirrors, and leaves them as mirrors. -/
theorem ask_mirrors (h : Mirrors t n) (r : Request) :
    (r.ask t).1 = (r.ask n).1 ∧ Mirrors (r.ask t).2 (r.ask n).2 := by
  -- a change is answered as it is committed
  have change : ∀ {a : Except Fault Tree} {b : Except Fault Node}, Alike a b →
      ((t.commit a).map (Except.map fun _ => Answer.done) id).1 =
          ((n.commit b).map (Except.map fun _ => Answer.done) id).1 ∧
        Mirrors ((t.commit a).map (Except.map fun _ => Answer.done) id).2
          ((n.commit b).map (Except.map fun _ => Answer.done) id).2 := by
    intro a b hab
    obtain ⟨h1, h2⟩ := h.commit hab
    exact ⟨congrArg (Except.map fun _ => Answer.done) h1, h2⟩
  cases r with
  | has p => exact ⟨congrArg (fun b => Except.ok (Answer.truth b)) h.has, h⟩
  | list p => exact ⟨congrArg (Except.map Answer.names) h.list, h⟩
  | read p => exact ⟨congrArg (Except.map Answer.text) h.read, h⟩
  | write p c => exact change h.write
  | createFile p c => exact change (h.create (.file c) (Node.file_bare c))
  | createDirectory p => exact change (h.create root_ok Node.root_bare)
  | deleteFile p => exact change h.deleteFile
  | deleteDirectory p => exact change h.deleteDirectory

/-! ## All requests -/

section Runs

variable {σ : Type} [Backend σ]

/-- The store after a sequence of requests. -/
def run (s : σ) (rs : List Request) : σ := rs.foldl (fun s r => (r.ask s).2) s

/-- What a sequence of requests is answered with, request by request. -/
def answers (s : σ) : List Request → List (Except Fault Answer)
  | [] => []
  | r :: rs => (r.ask s).1 :: answers (r.ask s).2 rs

end Runs

theorem Mirrors.run (h : Mirrors t n) (rs : List Request) : Mirrors (run t rs) (run n rs) := by
  induction rs generalizing t n with
  | nil => exact h
  | cons r rs ih => exact ih (ask_mirrors h r).2

theorem Mirrors.answers (h : Mirrors t n) (rs : List Request) : answers t rs = answers n rs := by
  induction rs generalizing t n with
  | nil => rfl
  | cons r rs ih =>
    obtain ⟨ha, hm⟩ := ask_mirrors h r
    rw [Store.answers, Store.answers, ha, ih hm]

/-- **The map of paths is a nested tree.** Whatever requests are put to the empty tree and to the
empty nested tree, the answers are the same; and after each of them the map has exactly the entries
of the nested tree, each under its absolute path. -/
theorem run_mirrors (rs : List Request) :
    answers Tree.empty rs = answers Node.root rs ∧
      ∀ i key e, (key, e) ∈ (run Tree.empty (rs.take i)).entries ↔
        (run Node.root (rs.take i)).Holds key e :=
  ⟨root_mirrors.answers rs, fun i _ _ => (root_mirrors.run (rs.take i)).holds⟩

end TreeShell.Store
