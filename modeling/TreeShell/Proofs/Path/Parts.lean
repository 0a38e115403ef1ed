import TreeShell.Path
import TreeShell.Proofs.Text.Cut

/-!
# Canonical paths

A path stands for its list of names (`parts`), and each list of names has one canonical path
(`ofParts`). The two are inverse to each other (`parts_ofParts`, `parts_canonical`).

* `canonical_eq_iff`: two paths have the same canonical path exactly if they have the same names.
* `canonical_eq_self_iff`: the canonical paths are the paths of lists of sound names.
* `spelled_of_canonical`: what a canonical path looks like.
* `parts_join`: a path put behind another one has the names of both.
-/

namespace TreeShell.Path

open Text

/-- A name that can stand between two slashes of a canonical path. -/
structure NameOK (c : String) : Prop where
  name : isName c.toList = true
  slash : '/' ∉ c.toList
  backslash : '\\' ∉ c.toList

/-- A list of sound names. -/
def PartsOK (cs : List String) : Prop := ∀ c ∈ cs, NameOK c

theorem partsOK_nil : PartsOK [] := fun _ h => absurd h List.not_mem_nil

theorem partsOK_cons {c : String} {cs : List String} : PartsOK (c :: cs) ↔ NameOK c ∧ PartsOK cs :=
  List.forall_mem_cons

theorem partsOK_append {cs ds : List String} : PartsOK (cs ++ ds) ↔ PartsOK cs ∧ PartsOK ds :=
  List.forall_mem_append

theorem partsOK_concat {cs : List String} {c : String} (hcs : PartsOK cs) (hc : NameOK c) :
    PartsOK (cs ++ [c]) :=
  partsOK_append.2 ⟨hcs, partsOK_cons.2 ⟨hc, partsOK_nil⟩⟩

theorem nameOK_of_mem_parts {p c : String} (h : c ∈ parts p) : NameOK c := by
  unfold parts at h
  obtain ⟨s, hs, rfl⟩ := List.mem_map.1 h
  obtain ⟨hs, hn⟩ := List.mem_filter.1 hs
  refine ⟨by simpa using hn, ?_, ?_⟩
  · rw [String.toList_ofList]; exact notMem_of_mem_splitOn hs
  · rw [String.toList_ofList]
    intro hc
    obtain ⟨d, -, hd⟩ := List.mem_map.1 (mem_of_mem_splitOn hs hc)
    unfold slashed at hd
    split at hd
    · simp at hd
    · contradiction

theorem partsOK_parts (p : String) : PartsOK (parts p) := fun _ => nameOK_of_mem_parts

/-- Every name behind a slash of its own. -/
def stem (cs : List String) : List Char := cs.flatMap fun c => '/' :: c.toList

@[simp] theorem stem_nil : stem [] = [] := rfl

@[simp] theorem stem_cons (c : String) (cs : List String) :
    stem (c :: cs) = '/' :: (c.toList ++ stem cs) := rfl

@[simp] theorem stem_append (cs ds : List String) : stem (cs ++ ds) = stem cs ++ stem ds :=
  List.flatMap_append

theorem length_le_stem (cs : List String) : cs.length ≤ (stem cs).length := by
  induction cs with
  | nil => exact Nat.le_refl 0
  | cons c cs ih => rw [stem_cons]; simp; omega

theorem ofParts_nil : ofParts [] = "/" := by simp [ofParts]

theorem toList_ofParts_eq (cs : List String) :
    (ofParts cs).toList = '/' :: ['/'].intercalate (cs.map String.toList) := by
  simp [ofParts, String.toList_intercalate]

theorem toList_ofParts {cs : List String} (hne : cs ≠ []) : (ofParts cs).toList = stem cs := by
  obtain ⟨c, cs, rfl⟩ := List.exists_cons_of_ne_nil hne
  rw [toList_ofParts_eq, List.map_cons, intercalate_cons_eq, List.flatMap_map]; rfl

theorem PartsOK.slash {cs : List String} (h : PartsOK cs) : ∀ c ∈ cs, '/' ∉ c.toList :=
  fun c hc => (h c hc).slash

/-- The names are found again between the slashes, behind the nothing before the first. -/
theorem splitOn_stem {cs : List String} (h : ∀ c ∈ cs, '/' ∉ c.toList) :
    (stem cs).splitOn '/' = [] :: cs.map String.toList := by
  by_cases hne : cs = []
  · subst hne; rfl
  have hs : ∀ s ∈ cs.map String.toList, '/' ∉ s := by
    intro s hs
    obtain ⟨c, hc, rfl⟩ := List.mem_map.1 hs
    exact h c hc
  rw [← toList_ofParts hne, toList_ofParts_eq, List.splitOn_cons_eq_if_modifyHead, if_pos (by simp),
    List.splitOn_intercalate _ hs (by simpa using hne)]

/-- Behind its first slash a path is cut into the names. -/
theorem splitOn_tail_ofParts {cs : List String} (hne : cs ≠ []) (h : ∀ c ∈ cs, '/' ∉ c.toList) :
    (ofParts cs).toList.tail.splitOn '/' = cs.map String.toList := by
  have hcut := splitOn_stem h
  rw [← toList_ofParts hne, toList_ofParts_eq, List.splitOn_cons_eq_if_modifyHead,
    if_pos (by simp)] at hcut
  rw [toList_ofParts_eq, List.tail_cons]
  exact (List.cons.inj hcut).2

/-- Unless it is the root, a path ends with the last character of its last name. -/
theorem getLast?_ofParts {cs : List String} (hne : cs ≠ [])
    (h : ∀ c ∈ cs, c.toList ≠ [] ∧ '/' ∉ c.toList) : (ofParts cs).toList.getLast? ≠ some '/' := by
  rcases List.eq_nil_or_concat cs with rfl | ⟨bs, c, rfl⟩
  · exact absurd rfl hne
  rw [List.concat_eq_append] at h ⊢
  obtain ⟨hc, hslash⟩ := h c (by simp)
  have hs : stem (bs ++ [c]) = (stem bs ++ ['/']) ++ c.toList := by simp
  rw [toList_ofParts (by simp), hs, List.getLast?_append, List.getLast?_eq_some_getLast hc]
  intro hl
  have hm := List.getLast_mem hc
  rw [Option.some_or] at hl
  rw [Option.some.inj hl] at hm
  exact hslash hm

theorem backslash_notMem_stem {cs : List String} (h : PartsOK cs) : '\\' ∉ stem cs := by
  intro hm
  obtain ⟨c, hc, hm⟩ := List.mem_flatMap.1 hm
  rcases List.mem_cons.1 hm with hm | hm
  · simp at hm
  · exact (h c hc).backslash hm

/-- Where there is no backslash, none is read as a slash. -/
theorem map_slashed {s : List Char} (h : '\\' ∉ s) : s.map slashed = s := by
  rw [List.map_congr_left (g := id), List.map_id]
  intro c hc
  unfold slashed
  rw [if_neg]
  · rfl
  · rintro rfl; exact h hc

/-- **A list of sound names is read back from its path.** -/
theorem parts_ofParts {cs : List String} (h : PartsOK cs) : parts (ofParts cs) = cs := by
  by_cases hne : cs = []
  · subst hne; rw [ofParts_nil]; decide
  have hf : (cs.map String.toList).filter isName = cs.map String.toList := by
    rw [List.filter_eq_self]
    intro s hs
    obtain ⟨c, hc, rfl⟩ := List.mem_map.1 hs
    exact (h c hc).name
  have he : isName [] = false := by decide
  unfold parts
  rw [toList_ofParts hne, map_slashed (backslash_notMem_stem h), splitOn_stem h.slash,
    List.filter_cons, he, hf]
  simp

theorem canonical_ofParts {cs : List String} (h : PartsOK cs) : canonical (ofParts cs) = ofParts cs := by
  unfold canonical; rw [parts_ofParts h]

@[simp] theorem parts_canonical (p : String) : parts (canonical p) = parts p :=
  parts_ofParts (partsOK_parts p)

@[simp] theorem canonical_canonical (p : String) : canonical (canonical p) = canonical p :=
  canonical_ofParts (partsOK_parts p)

theorem canonical_root : canonical "/" = "/" := by
  rw [← ofParts_nil]; exact canonical_ofParts partsOK_nil

theorem ofParts_inj {cs ds : List String} (hc : PartsOK cs) (hd : PartsOK ds) :
    ofParts cs = ofParts ds ↔ cs = ds := by
  constructor
  · intro h
    rw [← parts_ofParts hc, h, parts_ofParts hd]
  · rintro rfl; rfl

theorem ofParts_eq_root {cs : List String} (h : PartsOK cs) : ofParts cs = "/" ↔ cs = [] := by
  rw [← ofParts_nil, ofParts_inj h partsOK_nil]

/-- **Canonical paths tell names apart**, and nothing else. -/
theorem canonical_eq_iff {p q : String} : canonical p = canonical q ↔ parts p = parts q :=
  ofParts_inj (partsOK_parts p) (partsOK_parts q)

/-- **The canonical paths** are the paths of lists of sound names. -/
theorem canonical_eq_self_iff {key : String} :
    canonical key = key ↔ ∃ cs, PartsOK cs ∧ ofParts cs = key := by
  constructor
  · intro h; exact ⟨parts key, partsOK_parts key, h⟩
  · rintro ⟨cs, h, rfl⟩; exact canonical_ofParts h

/-- What a canonical path looks like: it starts with a slash and has no backslash. Unless it is the
root it does not end with a slash, and has nothing but names between its slashes. -/
structure Spelled (key : String) : Prop where
  absolute : key.toList.head? = some '/'
  backslash : '\\' ∉ key.toList
  open_end : key = "/" ∨ key.toList.getLast? ≠ some '/'
  names : key = "/" ∨ ∀ s ∈ key.toList.tail.splitOn '/', s ≠ [] ∧ s ≠ ['.']

theorem NameOK.ne_nil {c : String} (h : NameOK c) : c.toList ≠ [] := by
  intro hc
  have := h.name
  rw [hc] at this
  simp [isName] at this

theorem spelled_ofParts {cs : List String} (h : PartsOK cs) : Spelled (ofParts cs) := by
  by_cases hne : cs = []
  · subst hne; rw [ofParts_nil]; exact ⟨by decide, by decide, Or.inl rfl, Or.inl rfl⟩
  refine ⟨by rw [toList_ofParts_eq]; rfl, ?_, Or.inr ?_, Or.inr ?_⟩
  · rw [toList_ofParts hne]; exact backslash_notMem_stem h
  · exact getLast?_ofParts hne fun c hc => ⟨(h c hc).ne_nil, (h c hc).slash⟩
  · intro s hs
    rw [splitOn_tail_ofParts hne h.slash] at hs
    obtain ⟨d, hd, rfl⟩ := List.mem_map.1 hs
    simpa [isName] using (h d hd).name

/-- **A canonical path is spelled as one.** -/
theorem spelled_of_canonical {key : String} (h : canonical key = key) : Spelled key := by
  obtain ⟨cs, hc, rfl⟩ := canonical_eq_self_iff.1 h
  exact spelled_ofParts hc

/-! ## Paths put one behind the other -/

/-- **A path put behind another one** has the names of both. -/
theorem parts_join (p q : String) : parts (p ++ "/" ++ q) = parts p ++ parts q := by
  have htext : (p ++ "/" ++ q).toList.map slashed =
      p.toList.map slashed ++ '/' :: q.toList.map slashed := by
    have hslash : slashed '/' = '/' := by decide
    simp [hslash]
  unfold parts
  rw [htext, List.splitOn_append_cons_self, List.filter_append, List.map_append]

/-- Many paths, one behind the other. -/
theorem parts_intercalate (ps : List String) : parts ("/".intercalate ps) = ps.flatMap parts := by
  induction ps with
  | nil => decide
  | cons p ps ih =>
    cases ps with
    | nil => simp
    | cons q ps => rw [String.intercalate_cons_cons, parts_join, ih, ← List.flatMap_cons]

theorem parts_name {c : String} (h : NameOK c) : parts c = [c] := by
  have hcut : c.toList.splitOn '/' = [c.toList] := List.splitOn_eq_singleton h.slash
  unfold parts
  rw [map_slashed h.backslash, hcut, List.filter_cons, if_pos h.name]
  simp

/-- What a canonical path goes on to depends on nothing but that path. -/
theorem canonical_join {p p' : String} (h : canonical p = canonical p') (q : String) :
    canonical (p ++ "/" ++ q) = canonical (p' ++ "/" ++ q) := by
  rw [canonical_eq_iff] at h ⊢
  rw [parts_join, parts_join, h]

end TreeShell.Path
