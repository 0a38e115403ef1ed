import Mathlib.Tactic.MkIffOfInductiveProp
import TreeShell.Proofs.Store.InPlace
import TreeShell.Proofs.Store.Listing

/-!
# Requests at paths apart

Two requests at paths of which neither is the other or stands above it do not get in each other's way.
A request touches its own path, and a write touches the directories that it makes on its way. What a
request looks at is its own path, what lies below, the files above, and for a new entry the parent.

* `Done`, `ask_done`: all that a request does to a tree, if it succeeds.
* `SameTo`, `ask_alike`: two trees that look the same to a request, which is answered alike in both.
* `alike_apart`: to a request, a tree looks the same after another request at a path apart.
* `Done.both`: what stands in a tree after two requests apart, told by the tree before them.
* `ask_commute`: **requests apart commute**, in their answers and in the tree.
-/

namespace TreeShell.Store

open TreeShell.Path

/-! ## What a request does -/

namespace Request

/-- The key that a request is about. -/
def key (r : Request) : String := canonical r.path

/-- A request that makes the directories it needs. -/
def Writes : Request → Prop
  | write .. => True
  | _ => False

/-- A request that needs its directory to be there. -/
def Creates : Request → Prop
  | createFile .. => True
  | createDirectory _ => True
  | _ => False

/-- The directories on the way of a write. -/
def paved : Request → List String
  | write p _ => ancestors (canonical p)
  | _ => []

/-- What a request leaves at its key, given what has been there. -/
def leaves : Request → Option Entry → Option Entry
  | write _ c, _ => some (.file c)
  | createFile _ c, _ => some (.file c)
  | createDirectory _, _ => some .dir
  | deleteFile _, _ => none
  | deleteDirectory _, _ => none
  | has _, e => e
  | list _, e => e
  | read _, e => e

end Request

/-- All that a request does: something at its key, directories on the way of a write where no file
has been, and nothing else. -/
structure Done (r : Request) (t u : Tree) : Prop where
  at_key : u.get? r.key = r.leaves (t.get? r.key)
  paved : ∀ d ∈ r.paved, u.get? d = some .dir ∧ ∀ s, t.get? d ≠ some (.file s)
  frame : ∀ key, key ≠ r.key → key ∉ r.paved → u.get? key = t.get? key

variable {t u v : Tree} {r r' : Request} {p p' c d : String} {e : Entry}

theorem mem_paved (h : d ∈ r.paved) : r.Writes ∧ d ∈ ancestors r.key := by
  cases r with
  | write p c => exact ⟨trivial, h⟩
  | has p | list p | read p | createFile p c | createDirectory p | deleteFile p | deleteDirectory p =>
    cases h

/-- A request that makes no directories on its way touches nothing but its key. -/
theorem Done.unpaved (hpaved : r.paved = []) (hkey : u.get? r.key = r.leaves (t.get? r.key))
    (hframe : ∀ key, key ≠ r.key → u.get? key = t.get? key) : Done r t u := by
  refine ⟨hkey, fun d hd => ?_, fun key hk _ => hframe key hk⟩
  rw [hpaved] at hd
  cases hd

/-- A request that changes nothing has nothing to do. -/
theorem Done.idle (hleaves : ∀ e, r.leaves e = e) (hpaved : r.paved = []) : Done r t t :=
  .unpaved hpaved (hleaves _).symm fun _ _ => rfl

theorem write_done (ht : TreeOK t) (h : t.write p c = .ok u) : Done (.write p c) t u := by
  obtain ⟨-, ho, rfl⟩ := (write_ok ht).1 h
  refine ⟨?_, fun d hd => ⟨?_, ho d hd⟩, fun key hk hp => ?_⟩
  · exact get?_write h
  · have hd : d ∈ ancestors (canonical p) := hd
    rw [get?_plant, if_neg (ne_of_mem_ancestors hd), if_pos hd]
  · have hk : key ≠ canonical p := hk
    have hp : key ∉ ancestors (canonical p) := hp
    rw [get?_plant, if_neg hk, if_neg hp]

/-- One entry is all that is bound. -/
theorem Done.bind (hleaves : ∀ e', r.leaves e' = some e) (hpaved : r.paved = []) :
    Done r t (t.bind r.key e) := by
  refine .unpaved hpaved ?_ fun key hk => ?_
  · rw [Tree.get?_bind, if_pos rfl, hleaves]
  · rw [Tree.get?_bind, if_neg hk.symm]

/-- One entry is all that is taken away. -/
theorem Done.unbind (hleaves : ∀ e, r.leaves e = none) (hpaved : r.paved = []) :
    Done r t (t.unbind r.key) := by
  refine .unpaved hpaved ?_ fun key hk => ?_
  · rw [Tree.get?_unbind, if_pos rfl, hleaves]
  · rw [Tree.get?_unbind, if_neg hk.symm]

theorem commit_done {result : Except Fault Tree} {g : Unit → Answer} {a : Answer}
    (hdone : ∀ u, result = .ok u → Done r t u)
    (h : ((t.commit result).map (Except.map g) id).1 = .ok a) :
    Done r t ((t.commit result).map (Except.map g) id).2 := by
  cases result with
  | error f => cases h
  | ok u => exact hdone u rfl

/-- **All that a request does to a tree**, if it succeeds. -/
theorem ask_done (ht : TreeOK t) {a : Answer} (h : (r.ask t).1 = .ok a) : Done r t (r.ask t).2 := by
  cases r with
  | has p | list p | read p => exact .idle (fun _ => rfl) rfl
  | write p c => exact commit_done (fun u => write_done ht) h
  | createFile p c | createDirectory p =>
    refine commit_done (fun u hu => ?_) h
    obtain ⟨-, -, rfl⟩ := create_ok.1 hu
    exact .bind (fun _ => rfl) rfl
  | deleteFile p =>
    refine commit_done (fun u hu => ?_) h
    obtain ⟨-, rfl⟩ := deleteFile_ok.1 hu
    exact .unbind (r := .deleteFile p) (fun _ => rfl) rfl
  | deleteDirectory p =>
    refine commit_done (fun u hu => ?_) h
    obtain ⟨-, -, -, rfl⟩ := (deleteDirectory_ok ht).1 hu
    exact .unbind (r := .deleteDirectory p) (fun _ => rfl) rfl

/-! ## What a request looks at -/

/-- Two trees that look the same to a request: at its key and below, in the files above, and in the
parent if that has to be there. -/
structure SameTo (r : Request) (t u : Tree) : Prop where
  at_key : t.get? r.key = u.get? r.key
  below : ∀ key, r.key ∈ ancestors key → t.get? key = u.get? key
  files : ∀ d ∈ ancestors r.key, ∀ s, t.get? d = some (.file s) ↔ u.get? d = some (.file s)
  parent : r.Creates → ∀ d, parent? r.key = some d → t.get? d = u.get? d

/-- Two changes that both succeed, or fail for one reason. -/
inductive Agree : Except Fault Tree → Except Fault Tree → Prop
  | fault (f : Fault) : Agree (.error f) (.error f)
  | done (t u : Tree) : Agree (.ok t) (.ok u)

theorem Agree.answer {result result' : Except Fault Tree} (h : Agree result result')
    (g : Unit → Answer) :
    ((t.commit result).map (Except.map g) id).1 = ((u.commit result').map (Except.map g) id).1 := by
  cases h <;> rfl

theorem names_alike (ht : TreeOK t) (hu : TreeOK u) {q : String} (hq : canonical q = q)
    (hbelow : ∀ key, q ∈ ancestors key → t.get? key = u.get? key) : t.names q = u.names q := by
  obtain ⟨cs, hcs, rfl⟩ := canonical_eq_self_iff.1 hq
  have hmem : ∀ x, x ∈ t.names (ofParts cs) ↔ x ∈ u.names (ofParts cs) := by
    intro x
    rw [mem_names ht.canon hcs, mem_names hu.canon hcs]
    refine and_congr_right fun hx => ?_
    rw [hbelow _ (parent?_mem_ancestors (parent?_concat (partsOK_concat hcs hx)))]
  have hsorted := names_sorted hu.canon hcs
  have hnodup : (u.names (ofParts cs)).Nodup := hsorted.imp fun h => String.ne_of_lt h
  rw [eq_mergeSort (names_sorted ht.canon hcs) hnodup hmem,
    ← eq_mergeSort hsorted hnodup fun _ => Iff.rfl]

theorem write_alike (ht : TreeOK t) (hu : TreeOK u) (h : SameTo (.write p c) t u) :
    Agree (t.write p c) (u.write p c) := by
  have hkey : t.get? (canonical p) = u.get? (canonical p) := h.at_key
  by_cases hdir : t.get? (canonical p) = some .dir
  · rw [write_of_dir hdir, write_of_dir (hkey ▸ hdir)]
    exact .fault _
  by_cases ho : t.Open (canonical p)
  · have ho' : u.Open (canonical p) := fun d hd s hs => ho d hd s ((h.files d hd s).2 hs)
    rw [write_of_open ht hdir ho, write_of_open hu (hkey ▸ hdir) ho']
    exact .done _ _
  · -- the file on the way is the same in both
    obtain ⟨d, hd, s, hs⟩ : ∃ d ∈ ancestors (canonical p), ∃ s, t.get? d = some (.file s) := by
      simpa [Tree.Open] using ho
    rw [write_of_file ht hd hs, write_of_file hu hd ((h.files d hd s).1 hs)]
    exact .fault _

theorem create_alike (hkey : t.get? (canonical p) = u.get? (canonical p))
    (hparent : ∀ d, parent? (canonical p) = some d → t.get? d = u.get? d) (e : Entry) :
    Agree (t.create p e) (u.create p e) := by
  unfold Tree.create
  simp only [hkey]
  split
  · exact .fault _
  cases hp : parent? (canonical p) with
  | none => exact .fault _
  | some d =>
    simp only [hparent d hp]
    cases u.get? d with
    | none => exact .fault _
    | some e' =>
      cases e' with
      | file s => exact .fault _
      | dir => exact .done _ _

theorem deleteFile_alike (hkey : t.get? (canonical p) = u.get? (canonical p)) :
    Agree (t.deleteFile p) (u.deleteFile p) := by
  unfold Tree.deleteFile
  simp only [hkey]
  cases u.get? (canonical p) with
  | none => exact .fault _
  | some e =>
    cases e with
    | file s => exact .done _ _
    | dir => exact .fault _

theorem deleteDirectory_alike (ht : TreeOK t) (hu : TreeOK u)
    (hkey : t.get? (canonical p) = u.get? (canonical p))
    (hbelow : ∀ key, canonical p ∈ ancestors key → t.get? key = u.get? key) :
    Agree (t.deleteDirectory p) (u.deleteDirectory p) := by
  unfold Tree.deleteDirectory
  simp only [hkey]
  split
  · exact .fault _
  rename_i hroot
  have hoccupied : t.occupied (canonical p) = u.occupied (canonical p) := by
    rw [Bool.eq_iff_iff, occupied_iff ht (canonical_canonical p) hroot,
      occupied_iff hu (canonical_canonical p) hroot]
    exact exists_congr fun key => and_congr_left fun hq => by rw [hbelow key hq]
  cases u.get? (canonical p) with
  | none => exact .fault _
  | some e =>
    cases e with
    | file s => exact .fault _
    | dir =>
      simp only [hoccupied]
      split
      · exact .fault _
      · exact .done _ _

/-- **Where two trees look the same to a request**, it is answered alike. -/
theorem ask_alike (ht : TreeOK t) (hu : TreeOK u) (h : SameTo r t u) : (r.ask t).1 = (r.ask u).1 := by
  cases r with
  | has p =>
    have hkey : t.get? (canonical p) = u.get? (canonical p) := h.at_key
    show Except.ok (Answer.truth (t.has p)) = .ok (.truth (u.has p))
    unfold Tree.has
    rw [hkey]
  | list p =>
    have hkey : t.get? (canonical p) = u.get? (canonical p) := h.at_key
    have hnames : t.names (canonical p) = u.names (canonical p) :=
      names_alike ht hu (canonical_canonical p) h.below
    show (t.list p).map Answer.names = (u.list p).map Answer.names
    unfold Tree.names at hnames
    unfold Tree.list
    simp only [hkey, hnames]
  | read p =>
    have hkey : t.get? (canonical p) = u.get? (canonical p) := h.at_key
    show (t.read p).map Answer.text = (u.read p).map Answer.text
    unfold Tree.read
    simp only [hkey]
  | write p c => exact (write_alike ht hu h).answer _
  | createFile p c => exact (create_alike h.at_key (h.parent trivial) _).answer _
  | createDirectory p => exact (create_alike h.at_key (h.parent trivial) _).answer _
  | deleteFile p => exact (deleteFile_alike h.at_key).answer _
  | deleteDirectory p => exact (deleteDirectory_alike ht hu h.at_key h.below).answer _

/-! ## Paths apart -/

/-- Two paths of which neither is the other or stands above it. -/
@[mk_iff]
structure Apart (p p' : String) : Prop where
  ne : canonical p ≠ canonical p'
  not_above : ¬ Above (canonical p) p'
  not_below : ¬ Above (canonical p') p

theorem Apart.symm (h : Apart p p') : Apart p' p := ⟨h.ne.symm, h.not_below, h.not_above⟩

instance (d p : String) : Decidable (Above d p) := decidable_of_iff _ above_iff.symm

instance (p p' : String) : Decidable (Apart p p') := decidable_of_iff _ (apart_iff p p').symm

/-- Paths that are apart are not on the way of each other's write. -/
theorem Apart.notMem_paved (h : Apart r.path r'.path) : r.key ∉ r'.paved :=
  fun hp => h.not_above (above_iff.2 (mem_paved hp).2)

/-- The directory that a new entry at a path would lie in is there. -/
def Tree.Houses (t : Tree) (p : String) : Prop :=
  ∃ d, parent? (canonical p) = some d ∧ t.get? d = some .dir

/-- **To a request, a tree looks the same after another one** at a path apart, unless that one is a
write that might have made the directory it needs. -/
theorem alike_apart (hapart : Apart r.path r'.path) (hhoused : r'.Writes → r.Creates → t.Houses r.path)
    (h : Done r' t u) : SameTo r t u := by
  have hne : r.key ≠ r'.key := hapart.ne
  have hnot : r.key ∉ ancestors r'.key := fun h => hapart.not_above (above_iff.2 h)
  have hnot' : r'.key ∉ ancestors r.key := fun h => hapart.not_below (above_iff.2 h)
  refine ⟨(h.frame _ hne hapart.notMem_paved).symm, fun key hkey => ?_, fun d hd s => ?_, fun hcreates d hd => ?_⟩
  · have hkey' : key ≠ r'.key := by
      rintro rfl
      exact hnot hkey
    refine (h.frame key hkey' fun hp => hnot ?_).symm
    exact ancestors_trans (mem_paved hp).2 hkey
  · have hd' : d ≠ r'.key := ne_of_mem_of_not_mem hd hnot'
    by_cases hp : d ∈ r'.paved
    · -- a directory on both ways, where neither tree has a file
      obtain ⟨hdir, hfile⟩ := h.paved d hp
      rw [hdir]
      simp [hfile s]
    · rw [h.frame d hd' hp]
  · have hd' : d ≠ r'.key := ne_of_mem_of_not_mem (parent?_mem_ancestors hd) hnot'
    by_cases hp : d ∈ r'.paved
    · obtain ⟨x, hx, hdir⟩ := hhoused (mem_paved hp).1 hcreates
      have hxd : some x = some d := hx.symm.trans hd
      rw [Option.some.inj hxd] at hdir
      rw [hdir, (h.paved d hp).1]
    · rw [h.frame d hd' hp]

/-- What stands in a tree after two requests apart, told by the tree before them. -/
theorem Done.both (h : Done r t u) (h' : Done r' u v) (hapart : Apart r.path r'.path) (key : String) :
    v.get? key =
      if key = r.key then r.leaves (t.get? r.key)
      else if key = r'.key then r'.leaves (t.get? r'.key)
      else if key ∈ r.paved ∨ key ∈ r'.paved then some .dir
      else t.get? key := by
  have hne : r.key ≠ r'.key := hapart.ne
  split
  · rename_i hk
    rw [hk, h'.frame _ hne hapart.notMem_paved, h.at_key]
  rename_i hk
  split
  · rename_i hk'
    rw [hk', h'.at_key, h.frame _ hne.symm hapart.symm.notMem_paved]
  rename_i hk'
  by_cases hp' : key ∈ r'.paved
  · rw [if_pos (.inr hp'), (h'.paved key hp').1]
  rw [h'.frame key hk' hp']
  by_cases hp : key ∈ r.paved
  · rw [if_pos (.inl hp), (h.paved key hp).1]
  · rw [if_neg (not_or.2 ⟨hp, hp'⟩), h.frame key hk hp]

/-- A request is answered as it would be without another one before it, at a path apart. -/
theorem ask_apart (ht : TreeOK t) (hapart : Apart r.path r'.path)
    (hhoused : r'.Writes → r.Creates → t.Houses r.path) :
    (r.ask (r'.ask t).2).1 = (r.ask t).1 := by
  cases hr' : (r'.ask t).1 with
  | error f =>
    have hsame : (r'.ask t).2 = t := Request.ask_failed (Prod.ext hr' rfl)
    rw [hsame]
  | ok a =>
    exact (ask_alike ht (ask_ok ht r') (alike_apart hapart hhoused (ask_done ht hr'))).symm

/-- What fails alone fails after another request, too, and does nothing there, either. -/
theorem failed_after {f : Fault} (hanswer : (r.ask u).1 = (r.ask t).1) (h : (r.ask t).1 = .error f) :
    (r.ask t).2 = t ∧ (r.ask u).2 = u :=
  ⟨Request.ask_failed (Prod.ext h rfl), Request.ask_failed (Prod.ext (hanswer.trans h) rfl)⟩

/-- **Requests apart commute.**

Two requests at paths of which neither is the other or stands above it are answered the same in either
order, and leave the same tree. If one of them is a write and the other creates an entry, then this
is so as long as the directory for the entry is there. -/
theorem ask_commute (ht : TreeOK t) (hapart : Apart r.path r'.path)
    (hhoused : r'.Writes → r.Creates → t.Houses r.path)
    (hhoused' : r.Writes → r'.Creates → t.Houses r'.path) :
    (r.ask (r'.ask t).2).1 = (r.ask t).1 ∧ (r'.ask (r.ask t).2).1 = (r'.ask t).1 ∧
      (r'.ask (r.ask t).2).2 = (r.ask (r'.ask t).2).2 := by
  have hanswer := ask_apart ht hapart hhoused
  have hanswer' := ask_apart ht hapart.symm hhoused'
  refine ⟨hanswer, hanswer', ?_⟩
  cases hr : (r.ask t).1 with
  | error f =>
    obtain ⟨hsame, hsame'⟩ := failed_after hanswer hr
    rw [hsame, hsame']
  | ok a =>
    cases hr' : (r'.ask t).1 with
    | error f =>
      obtain ⟨hsame, hsame'⟩ := failed_after hanswer' hr'
      rw [hsame, hsame']
    | ok a' =>
      -- both have succeeded in either order, so each key can be told by the tree before them
      have hboth : Done r' (r.ask t).2 (r'.ask (r.ask t).2).2 :=
        ask_done (ask_ok ht r) (hanswer'.trans hr')
      have hboth' : Done r (r'.ask t).2 (r.ask (r'.ask t).2).2 :=
        ask_done (ask_ok ht r') (hanswer.trans hr)
      refine Tree.ext_get? fun key => ?_
      rw [(ask_done ht hr).both hboth hapart, (ask_done ht hr').both hboth' hapart.symm]
      have hne : r.key ≠ r'.key := hapart.ne
      by_cases hk : key = r.key
      · have hk' : key ≠ r'.key := fun h => hne (hk.symm.trans h)
        rw [if_pos hk, if_neg hk', if_pos hk]
      · simp only [if_neg hk, or_comm]

/-- A tree with a file in one directory and an empty one beside it. -/
def barn : Tree :=
  ((Request.createDirectory "/e").ask ((Request.write "/d/a" "old").ask Tree.empty).2).2

/-- A write that makes a directory and a new file beside that; and a write below a file, which is
refused in either order, with a directory that is deleted. -/
theorem ask_commute_barn :
    let r := Request.write "d\\x/./y" "new"
    let r' := Request.createFile "/d//b" ""
    let q := Request.write "/d/a/z" "new"
    let q' := Request.deleteDirectory "e/"
    TreeOK barn ∧ Apart r.path r'.path ∧ barn.Houses r'.path ∧ Apart q.path q'.path ∧
      ((r'.ask (r.ask barn).2).2 = (r.ask (r'.ask barn).2).2 ∧
        (r'.ask (r.ask barn).2).1 = .ok .done ∧ (r.ask (r'.ask barn).2).1 = .ok .done) ∧
      (q'.ask (q.ask barn).2).2 = (q.ask (q'.ask barn).2).2 ∧
        (q'.ask (q.ask barn).2).1 = .ok .done ∧
        (q.ask (q'.ask barn).2).1 = .error (.notDirectory "/d/a") := by
  intro r r' q q'
  have ht : TreeOK barn := ask_ok (ask_ok empty_ok _) _
  have hr : Apart r.path r'.path := by decide
  have hq : Apart q.path q'.path := by decide
  have hhouses : barn.Houses r'.path := ⟨"/d", by decide, rfl⟩
  obtain ⟨hanswer, hanswer', htree⟩ := ask_commute ht hr (fun h => h.elim) fun _ _ => hhouses
  obtain ⟨hrefused, hdeleted, hsame⟩ := ask_commute ht hq (fun h => h.elim) fun _ h => h.elim
  exact ⟨ht, hr, hhouses, hq, ⟨htree, hanswer'.trans rfl, hanswer.trans rfl⟩,
    hsame, hdeleted.trans rfl, hrefused.trans rfl⟩

/-- A file cannot be created before the write that makes its directory. -/
example :
    let r := Request.createFile "/d/b" ""
    let r' := Request.write "/d/a" ""
    Apart r.path r'.path ∧ (r.ask Tree.empty).1 = .error (.notFound "/d") ∧
      (r.ask (r'.ask Tree.empty).2).1 = .ok .done :=
  ⟨by decide, rfl, rfl⟩

end TreeShell.Store
