import TreeShell.Proofs.Path.Parts
import TreeShell.Store.Backend

/-!
# A nested tree

The file tree as one thinks of it: a file holds a text, a directory binds names to what lies in it.
A path is walked name by name from the root, so no operation looks at the text of a path.

* `Node.at?`: what a list of names leads to. `Node.graft` and `Node.prune` change it there.
* `Backend Node`: the requests to a store, answered by a nested tree.
* `entryAt?_graft`, `entryAt?_prune`: what the changes do, seen from every path.
* `NodeOK`: names are sound and none is bound twice; the changes keep that.
-/

namespace TreeShell.Store

open TreeShell.Path

/-- A file with its text, or a directory with what its names are bound to. -/
inductive Node
  | file (content : String)
  | dir (kids : List (String × Node))

namespace Node

/-- Nothing but the root. -/
def root : Node := .dir []

/-- What a node is, without what lies in it. -/
def entry : Node → Entry
  | .file s => .file s
  | .dir _ => .dir

/-- Binds a name to a node, in the place of what it was bound to. -/
def put (c : String) (k : Node) (kids : List (String × Node)) : List (String × Node) :=
  (c, k) :: kids.filter (·.1 ≠ c)

/-- Takes a name away. -/
def drop (c : String) (kids : List (String × Node)) : List (String × Node) :=
  kids.filter (·.1 ≠ c)

/-- What a list of names leads to. -/
def at? : Node → List String → Option Node
  | n, [] => some n
  | .file _, _ :: _ => none
  | .dir kids, c :: cs =>
    match kids.lookup c with
    | none => none
    | some k => k.at? cs

/-- The part of a list of names at which a file bars the way to the rest. -/
def blocked? : Node → List String → Option (List String)
  | _, [] => none
  | .file _, _ :: _ => some []
  | .dir kids, c :: cs =>
    match kids.lookup c with
    | none => none
    | some k => (k.blocked? cs).map (c :: ·)

/-- Puts `m` where the names lead, and makes directories of names that lead nowhere. -/
def graft (m : Node) : Node → List String → Node
  | _, [] => m
  | .file s, _ :: _ => .file s
  | .dir kids, c :: cs => .dir (put c (graft m ((kids.lookup c).getD (.dir [])) cs) kids)

/-- Takes away what the names lead to. -/
def prune : Node → List String → Node
  | n, [] => n
  | .file s, _ :: _ => .file s
  | .dir kids, [c] => .dir (drop c kids)
  | .dir kids, c :: d :: cs =>
    match kids.lookup c with
    | none => .dir kids
    | some k => .dir (put c (k.prune (d :: cs)) kids)

/-- Whether a path leads to anything. -/
def has (n : Node) (path : String) : Bool :=
  (n.at? (parts path)).isSome

/-- The names in a directory, in code point order. -/
def list (n : Node) (path : String) : Except Fault (List String) :=
  match n.at? (parts path) with
  | none => .error (.notFound (canonical path))
  | some (.file _) => .error (.notDirectory (canonical path))
  | some (.dir kids) => .ok (kids.map Prod.fst).mergeSort

/-- The content of a file. -/
def read (n : Node) (path : String) : Except Fault String :=
  match n.at? (parts path) with
  | some (.file content) => .ok content
  | some (.dir _) => .error (.isDirectory (canonical path))
  | none => .error (.notFound (canonical path))

/-- Creates or overwrites a file, and the directories it needs. -/
def write (n : Node) (path content : String) : Except Fault Node :=
  match n.at? (parts path), n.blocked? (parts path) with
  | some (.dir _), _ => .error (.isDirectory (canonical path))
  | _, some cs => .error (.notDirectory (ofParts cs))
  | _, none => .ok (graft (.file content) n (parts path))

/-- Adds a file or an empty directory to an existing directory. -/
def create (n : Node) (path : String) (m : Node) : Except Fault Node :=
  let cs := parts path
  if (n.at? cs).isSome then .error (.alreadyExists (canonical path))
  else
    match n.at? cs.dropLast with
    | some (.dir _) => .ok (graft m n cs)
    | some (.file _) => .error (.notDirectory (ofParts cs.dropLast))
    | none => .error (.notFound (ofParts cs.dropLast))

/-- Takes a file away. -/
def deleteFile (n : Node) (path : String) : Except Fault Node :=
  match n.at? (parts path) with
  | some (.file _) => .ok (n.prune (parts path))
  | some (.dir _) => .error (.isDirectory (canonical path))
  | none => .error (.notFound (canonical path))

/-- Takes an empty directory away, but never the root. -/
def deleteDirectory (n : Node) (path : String) : Except Fault Node :=
  if parts path = [] then .error (.permissionDenied "cannot remove root")
  else
    match n.at? (parts path) with
    | none => .error (.notFound (canonical path))
    | some (.file _) => .error (.notDirectory (canonical path))
    | some (.dir []) => .ok (n.prune (parts path))
    | some (.dir (_ :: _)) => .error (.directoryNotEmpty (canonical path))

/-- A change as an answer: a fault leaves the nodes as they were. -/
def commit (n : Node) : Except Fault Node → Except Fault Unit × Node
  | .ok n' => (.ok (), n')
  | .error f => (.error f, n)

instance : Backend Node where
  has p n := (n.has p, n)
  list p n := (n.list p, n)
  read p n := (n.read p, n)
  write p c n := n.commit (n.write p c)
  createFile p c n := n.commit (n.create p (.file c))
  createDirectory p n := n.commit (n.create p .root)
  deleteFile p n := n.commit (n.deleteFile p)
  deleteDirectory p n := n.commit (n.deleteDirectory p)

/-- The tree has this entry at this absolute path. -/
def Holds (n : Node) (key : String) (e : Entry) : Prop :=
  ∃ cs m, n.at? cs = some m ∧ ofParts cs = key ∧ m.entry = e

/-! ## What a path sees -/

/-- What a list of names leads to, without what lies in it. -/
def entryAt? (n : Node) (cs : List String) : Option Entry := (n.at? cs).map entry

variable {n m k : Node} {kids : List (String × Node)} {c d s : String} {cs ps : List String}

theorem entryAt?_of_at? (hm : n.at? cs = some m) : n.entryAt? cs = some m.entry := by
  unfold entryAt?; rw [hm]; rfl

theorem entryAt?_of_none (hm : n.at? cs = none) : n.entryAt? cs = none := by
  unfold entryAt?; rw [hm]; rfl

@[simp] theorem entryAt?_nil : n.entryAt? [] = some n.entry := by
  cases n <;> rfl

@[simp] theorem entryAt?_file_cons : (Node.file s).entryAt? (c :: cs) = none := rfl

theorem entryAt?_dir_cons : (Node.dir kids).entryAt? (c :: cs) = (kids.lookup c).bind (·.entryAt? cs) := by
  unfold entryAt?
  rw [at?]
  cases kids.lookup c <;> rfl

theorem at?_append (cs ds : List String) : n.at? (cs ++ ds) = (n.at? cs).bind (·.at? ds) := by
  induction cs generalizing n with
  | nil => cases n <;> rfl
  | cons c cs ih =>
    cases n with
    | file s => rfl
    | dir kids =>
      rw [List.cons_append, at?, at?]
      cases kids.lookup c with
      | none => rfl
      | some k => exact ih

theorem entryAt?_append (hm : n.at? cs = some m) (ds : List String) :
    n.entryAt? (cs ++ ds) = m.entryAt? ds := by
  unfold entryAt?; rw [at?_append, hm]; rfl

theorem entryAt?_append_none (hm : n.at? cs = none) (ds : List String) :
    n.entryAt? (cs ++ ds) = none :=
  entryAt?_of_none (by rw [at?_append, hm]; rfl)

/-- Nothing lies in the node: it is a file or an empty directory. -/
def Bare (m : Node) : Prop := ∀ cs, cs ≠ [] → m.entryAt? cs = none

theorem file_bare (s : String) : (file s).Bare := by
  intro cs hne
  obtain ⟨d, cs, rfl⟩ := List.exists_cons_of_ne_nil hne
  rfl

theorem root_bare : root.Bare := by
  intro cs hne
  obtain ⟨d, cs, rfl⟩ := List.exists_cons_of_ne_nil hne
  rfl

theorem mem_of_lookup (h : kids.lookup c = some k) : (c, k) ∈ kids := by
  obtain ⟨l, r, rfl, -⟩ := List.lookup_eq_some_iff.1 h
  simp

/-- The names bound in a directory are those of the entries one name below it. -/
theorem mem_kids (hm : n.at? cs = some (.dir kids)) :
    c ∈ kids.map Prod.fst ↔ (n.entryAt? (cs ++ [c])).isSome := by
  rw [entryAt?_append hm, entryAt?_dir_cons]
  cases hl : kids.lookup c with
  | none =>
    rw [List.lookup_eq_none_iff] at hl
    constructor
    · intro hc
      obtain ⟨k, hk, rfl⟩ := List.mem_map.1 hc
      have := hl k hk
      simp at this
    · intro hs; cases hs
  | some k =>
    refine iff_of_true (List.mem_map.2 ⟨_, mem_of_lookup hl, rfl⟩) ?_
    rw [Option.bind_some, entryAt?_nil]; rfl

theorem lookup_drop : (drop c kids).lookup d = if d = c then none else kids.lookup d := by
  unfold drop
  induction kids with
  | nil => simp
  | cons x kids ih =>
    obtain ⟨b, k⟩ := x
    rw [List.filter_cons]
    by_cases hb : b = c
    · subst hb
      rw [if_neg (by simp), ih, List.lookup_cons]
      split
      · rfl
      · rename_i hd; rw [beq_false_of_ne hd]
    · rw [if_pos (by simpa using hb), List.lookup_cons, List.lookup_cons, ih]
      by_cases hd : d = b
      · subst hd; simp [hb]
      · rw [beq_false_of_ne hd]

theorem lookup_put : (put c k kids).lookup d = if d = c then some k else kids.lookup d := by
  have hp : put c k kids = (c, k) :: drop c kids := rfl
  rw [hp, List.lookup_cons, lookup_drop]
  by_cases hd : d = c
  · subst hd; simp
  · rw [beq_false_of_ne hd, if_neg hd, if_neg hd]

/-- What lies in a name that is bound or not. -/
theorem entryAt?_getD (hne : cs ≠ []) :
    ((kids.lookup c).getD (.dir [])).entryAt? cs = (Node.dir kids).entryAt? (c :: cs) := by
  rw [entryAt?_dir_cons]
  cases kids.lookup c with
  | some k => rfl
  | none =>
    obtain ⟨d, cs, rfl⟩ := List.exists_cons_of_ne_nil hne
    rw [Option.getD_none, entryAt?_dir_cons]; rfl

/-- No file stands on the way where the names lead. -/
def Open (n : Node) (ps : List String) : Prop :=
  ∀ bs, bs <+: ps → bs ≠ ps → ∀ s, n.entryAt? bs ≠ some (.file s)

theorem blocked?_eq_none (h : n.blocked? ps = none) : n.Open ps := by
  induction ps generalizing n with
  | nil => intro bs hp hne; exact absurd (List.prefix_nil.1 hp) hne
  | cons c ps ih =>
    intro bs hp hne s hs
    cases n with
    | file s' => cases h
    | dir kids =>
      cases bs with
      | nil => rw [entryAt?_nil] at hs; cases hs
      | cons b bs =>
        obtain ⟨rfl, hbp⟩ := List.cons_prefix_cons.1 hp
        rw [entryAt?_dir_cons] at hs
        rw [blocked?] at h
        cases hl : kids.lookup b with
        | none => rw [hl] at hs; cases hs
        | some k =>
          rw [hl] at hs h
          exact ih (Option.map_eq_none_iff.1 h) bs hbp (fun he => hne (by rw [he])) s hs

/-- What bars the way is a file on it. -/
theorem blocked?_eq_some {bs : List String} (h : n.blocked? ps = some bs) :
    bs <+: ps ∧ bs ≠ ps ∧ ∃ s, n.entryAt? bs = some (.file s) := by
  induction ps generalizing n bs with
  | nil => cases n <;> cases h
  | cons c ps ih =>
    cases n with
    | file s =>
      cases h
      exact ⟨List.nil_prefix, by simp, s, entryAt?_nil⟩
    | dir kids =>
      rw [blocked?] at h
      cases hl : kids.lookup c with
      | none => rw [hl] at h; cases h
      | some k =>
        rw [hl] at h
        obtain ⟨as, ha, rfl⟩ := Option.map_eq_some_iff.1 h
        obtain ⟨hp, hne, s, hs⟩ := ih ha
        refine ⟨List.cons_prefix_cons.2 ⟨rfl, hp⟩, fun he => hne (List.cons.inj he).2, s, ?_⟩
        rw [entryAt?_dir_cons, hl]; exact hs

/-- **Grafting, seen from every path**: the leaf stands at the end of the way, directories lead
there, and nothing else has changed. -/
theorem entryAt?_graft (hm : m.Bare)
    (ho : n.Open ps)
    (hb : ∀ cs, cs ≠ [] → n.entryAt? (ps ++ cs) = none) (cs : List String) :
    (graft m n ps).entryAt? cs =
      if cs = ps then some m.entry else if cs <+: ps then some .dir else n.entryAt? cs := by
  induction ps generalizing n cs with
  | nil =>
    have hg : graft m n [] = m := by cases n <;> rfl
    rw [hg]
    by_cases hcs : cs = []
    · rw [if_pos hcs, hcs, entryAt?_nil]
    · rw [if_neg hcs, if_neg (mt List.prefix_nil.1 hcs), hm cs hcs]
      exact (hb cs hcs).symm
  | cons p ps ih =>
    cases n with
    | file s => exact absurd entryAt?_nil (ho [] List.nil_prefix (by simp) s)
    | dir kids =>
      rw [graft]
      cases cs with
      | nil => simp [entry]
      | cons c cs =>
        rw [entryAt?_dir_cons, lookup_put]
        by_cases hc : c = p
        · -- on the way: the same one level down
          subst hc
          have hk := ih (n := (kids.lookup c).getD (.dir [])) ?_ ?_ cs
          · rw [if_pos rfl, Option.bind_some, hk]
            simp only [List.cons.injEq, true_and, List.cons_prefix_cons]
            by_cases hcs : cs = []
            · subst hcs; simp
            · rw [entryAt?_getD hcs]
          · intro bs hp hne s hs
            by_cases hbs : bs = []
            · subst hbs
              cases hl : kids.lookup c with
              | none => rw [hl] at hs; cases hs
              | some k =>
                refine ho [c] (by simp) (fun h => hne (List.cons.inj h).2) s ?_
                rw [entryAt?_dir_cons, hl]
                rw [hl] at hs; exact hs
            · rw [entryAt?_getD hbs] at hs
              exact ho (c :: bs) (List.cons_prefix_cons.2 ⟨rfl, hp⟩)
                (fun h => hne (List.cons.inj h).2) s hs
          · intro ds hds
            rw [entryAt?_getD (by simp [hds])]
            exact hb ds hds
        · rw [if_neg hc, ← entryAt?_dir_cons, if_neg fun h => hc (List.cons.inj h).1,
            if_neg fun h => hc (List.cons_prefix_cons.1 h).1]

/-- **Pruning, seen from every path**: nothing is left there or below. -/
theorem entryAt?_prune (hne : ps ≠ []) (cs : List String) :
    (n.prune ps).entryAt? cs = if ps <+: cs then none else n.entryAt? cs := by
  induction ps generalizing n cs with
  | nil => exact absurd rfl hne
  | cons p ps ih =>
    cases cs with
    | nil =>
      rw [if_neg (by simp)]
      cases n with
      | file s => rfl
      | dir kids =>
        cases ps with
        | nil => rfl
        | cons q ps => rw [prune]; split <;> rfl
    | cons c cs =>
      simp only [List.cons_prefix_cons]
      cases n with
      | file s => simp [prune]
      | dir kids =>
        cases ps with
        | nil =>
          rw [prune, entryAt?_dir_cons, lookup_drop, entryAt?_dir_cons]
          by_cases hc : c = p
          · subst hc; simp
          · rw [if_neg hc, if_neg fun h => hc h.1.symm]
        | cons q ps =>
          rw [prune]
          by_cases hc : c = p
          · subst hc
            simp only [true_and]
            cases hl : kids.lookup c with
            | none => rw [entryAt?_dir_cons, hl]; simp
            | some k =>
              simp only [entryAt?_dir_cons, lookup_put, if_true, hl, Option.bind_some]
              exact ih (by simp) cs
          · rw [if_neg fun h => hc h.1.symm]
            split
            · rfl
            · rw [entryAt?_dir_cons, lookup_put, if_neg hc, ← entryAt?_dir_cons]

end Node

/-! ## Sound names, none bound twice -/

/-- Names are sound, and none is bound twice. -/
inductive NodeOK : Node → Prop
  | file (s : String) : NodeOK (.file s)
  | dir {kids : List (String × Node)} (once : (kids.map Prod.fst).Nodup)
      (names : ∀ x ∈ kids, NameOK x.1) (kids_ok : ∀ x ∈ kids, NodeOK x.2) : NodeOK (.dir kids)

variable {n m k : Node} {kids : List (String × Node)} {c : String} {cs ps : List String}

theorem root_ok : NodeOK .root :=
  .dir List.nodup_nil (fun _ h => absurd h List.not_mem_nil) fun _ h => absurd h List.not_mem_nil

theorem NodeOK.lookup (h : NodeOK (.dir kids)) (hl : kids.lookup c = some k) : NameOK c ∧ NodeOK k := by
  cases h with
  | dir _ names kids_ok => exact ⟨names _ (Node.mem_of_lookup hl), kids_ok _ (Node.mem_of_lookup hl)⟩

theorem NodeOK.drop (h : NodeOK (.dir kids)) : NodeOK (.dir (Node.drop c kids)) := by
  cases h with
  | dir once names kids_ok =>
    have hs : (Node.drop c kids).Sublist kids := List.filter_sublist
    exact .dir ((hs.map _).nodup once) (fun x hx => names x (hs.subset hx))
      fun x hx => kids_ok x (hs.subset hx)

theorem NodeOK.put (h : NodeOK (.dir kids)) (hc : NameOK c) (hk : NodeOK k) :
    NodeOK (.dir (Node.put c k kids)) := by
  have hd := h.drop (c := c)
  have hp : Node.put c k kids = (c, k) :: Node.drop c kids := rfl
  rw [hp]
  cases hd with
  | dir once names kids_ok =>
    refine .dir ?_ (List.forall_mem_cons.2 ⟨hc, names⟩) (List.forall_mem_cons.2 ⟨hk, kids_ok⟩)
    rw [List.map_cons, List.nodup_cons]
    refine ⟨fun hm => ?_, once⟩
    obtain ⟨x, hx, he⟩ := List.mem_map.1 hm
    have := (List.mem_filter.1 hx).2
    simp [he] at this

/-- Sound nodes are reached over sound names only, and what is reached is sound. -/
theorem NodeOK.at? (h : NodeOK n) (ha : n.at? cs = some k) : PartsOK cs ∧ NodeOK k := by
  induction cs generalizing n with
  | nil =>
    have hn : n = k := by cases n <;> exact Option.some.inj ha
    subst hn; exact ⟨partsOK_nil, h⟩
  | cons c cs ih =>
    cases n with
    | file s => cases ha
    | dir kids =>
      rw [Node.at?] at ha
      cases hl : kids.lookup c with
      | none => rw [hl] at ha; cases ha
      | some k' =>
        rw [hl] at ha
        obtain ⟨hc, hk⟩ := h.lookup hl
        obtain ⟨hcs, hk⟩ := ih hk ha
        exact ⟨partsOK_cons.2 ⟨hc, hcs⟩, hk⟩

theorem NodeOK.graft (h : NodeOK n) (hm : NodeOK m) (hp : PartsOK ps) :
    NodeOK (Node.graft m n ps) := by
  induction ps generalizing n with
  | nil => cases n <;> exact hm
  | cons c ps ih =>
    obtain ⟨hc, hp⟩ := partsOK_cons.1 hp
    cases n with
    | file s => exact h
    | dir kids =>
      refine h.put hc (ih ?_ hp)
      cases hl : kids.lookup c with
      | none => exact root_ok
      | some k => exact (h.lookup hl).2

theorem NodeOK.prune (h : NodeOK n) : NodeOK (n.prune ps) := by
  induction ps generalizing n with
  | nil => cases n <;> exact h
  | cons c ps ih =>
    cases n with
    | file s => exact h
    | dir kids =>
      cases ps with
      | nil => exact h.drop
      | cons d ps =>
        rw [Node.prune]
        cases hl : kids.lookup c with
        | none => exact h
        | some k => exact h.put (h.lookup hl).1 (ih (h.lookup hl).2)

end TreeShell.Store
