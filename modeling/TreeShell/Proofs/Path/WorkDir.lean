import TreeShell.Proofs.Path.Parts
import TreeShell.WorkDir

/-!
# Tidy directories

`cd` tidies the path it leads to. What it makes of a path is the path of the names that are left.

* `names_plain`: the names that are left are neither empty nor dots.
* `names_ofParts`: plain names are left as they are, so tidying twice is tidying once (`tidy_tidy`).
* `Tidy`, `tidy_spelled`: **what a tidy path looks like.**
* `locate_absolute`: an argument located from an absolute directory is an absolute path.
-/

namespace TreeShell.WorkDir

open TreeShell.Path Text

/-- A path that starts at the root. -/
def Absolute (p : String) : Prop := p.toList.head? = some '/'

/-- A name that `cd` goes down into. -/
structure Plain (c : String) : Prop where
  full : c.toList ≠ []
  dot : c.toList ≠ ['.']
  dots : c.toList ≠ ['.', '.']
  slash : '/' ∉ c.toList

/-- What a tidy path looks like: it starts with a slash, and unless it is the root it does not end
with one and has nothing empty and no dots between its slashes. Tidying leaves it as it is. -/
structure Tidy (cwd : String) : Prop where
  absolute : Absolute cwd
  open_end : cwd = "/" ∨ cwd.toList.getLast? ≠ some '/'
  names : cwd = "/" ∨ ∀ s ∈ cwd.toList.tail.splitOn '/', s ≠ [] ∧ s ≠ ['.'] ∧ s ≠ ['.', '.']
  fixed : tidy cwd = cwd

variable {c p cwd : String} {cs : List String}

theorem push_plain (hc : Plain c) (cs : List String) : push cs c = cs ++ [c] := by
  have hempty : c ≠ "" := fun h => hc.full (by rw [h]; rfl)
  have hdot : c ≠ "." := fun h => hc.dot (by rw [h]; rfl)
  have hdots : c ≠ ".." := fun h => hc.dots (by rw [h]; rfl)
  unfold push
  rw [if_neg (by simp [hempty, hdot]), if_neg hdots]

/-- One more part leaves plain names. -/
theorem plain_push (hcs : ∀ c ∈ cs, Plain c) (hslash : '/' ∉ c.toList) :
    ∀ d ∈ push cs c, Plain d := by
  intro d hd
  unfold push at hd
  split at hd
  · exact hcs d hd
  rename_i hidle
  simp only [Bool.or_eq_true, decide_eq_true_eq, not_or] at hidle
  split at hd
  · exact hcs d (List.dropLast_subset cs hd)
  rename_i hdots
  rcases List.mem_append.1 hd with hd | hd
  · exact hcs d hd
  obtain rfl := List.mem_singleton.1 hd
  have hchars : ∀ {t : String}, d ≠ t → d.toList ≠ t.toList :=
    fun hne h => hne (String.toList_inj.1 h)
  exact ⟨hchars hidle.1, hchars hidle.2, hchars hdots, hslash⟩

theorem foldl_push_plain {parts : List String} (hcs : ∀ c ∈ cs, Plain c)
    (hparts : ∀ c ∈ parts, '/' ∉ c.toList) : ∀ d ∈ parts.foldl push cs, Plain d := by
  induction parts generalizing cs with
  | nil => exact hcs
  | cons part parts ih =>
    have hpart := hparts part List.mem_cons_self
    exact ih (plain_push hcs hpart) fun c hc => hparts c (List.mem_cons_of_mem part hc)

/-- **What is left of a path** are plain names. -/
theorem names_plain (p : String) : ∀ c ∈ names p, Plain c := by
  unfold names
  apply foldl_push_plain
  · intro c hc
    exact absurd hc List.not_mem_nil
  · intro c hc
    obtain ⟨s, hs, rfl⟩ := List.mem_map.1 hc
    rw [String.toList_ofList]
    exact notMem_of_mem_splitOn hs

theorem foldl_push (hcs : ∀ c ∈ cs, Plain c) (stack : List String) :
    cs.foldl push stack = stack ++ cs := by
  induction cs generalizing stack with
  | nil => exact (List.append_nil stack).symm
  | cons c cs ih =>
    have hc := hcs c List.mem_cons_self
    rw [List.foldl_cons, push_plain hc, ih fun d hd => hcs d (List.mem_cons_of_mem c hd),
      List.append_assoc]
    rfl

/-- Plain names are read back from their path. -/
theorem names_ofParts (hcs : ∀ c ∈ cs, Plain c) : names (ofParts cs) = cs := by
  by_cases hne : cs = []
  · subst hne; rw [ofParts_nil]; decide
  -- the nothing before the first slash is dropped
  have hroot : push [] (String.ofList []) = [] := by decide
  unfold names
  rw [toList_ofParts hne, splitOn_stem fun c hc => (hcs c hc).slash, List.map_cons, map_ofList_toList,
    List.foldl_cons, hroot, foldl_push hcs, List.nil_append]

theorem tidy_eq (p : String) : tidy p = ofParts (names p) := rfl

theorem names_tidy (p : String) : names (tidy p) = names p := names_ofParts (names_plain p)

theorem tidy_tidy (p : String) : tidy (tidy p) = tidy p := by
  rw [tidy_eq (tidy p), names_tidy, tidy_eq]

theorem tidy_absolute (p : String) : Absolute (tidy p) := by
  unfold Absolute
  rw [tidy_eq, toList_ofParts_eq]
  rfl

/-- **What `cd` makes of a path is tidy.** -/
theorem tidy_spelled (p : String) : Tidy (tidy p) := by
  have hplain := names_plain p
  refine ⟨tidy_absolute p, ?_, ?_, tidy_tidy p⟩ <;> rw [tidy_eq] <;> by_cases hne : names p = []
  · exact Or.inl (by rw [hne, ofParts_nil])
  · exact Or.inr (getLast?_ofParts hne fun c hc => ⟨(hplain c hc).full, (hplain c hc).slash⟩)
  · exact Or.inl (by rw [hne, ofParts_nil])
  · refine Or.inr fun s hs => ?_
    rw [splitOn_tail_ofParts hne fun c hc => (hplain c hc).slash] at hs
    obtain ⟨c, hc, rfl⟩ := List.mem_map.1 hs
    exact ⟨(hplain c hc).full, (hplain c hc).dot, (hplain c hc).dots⟩

theorem root_tidy : Tidy "/" := tidy_spelled "/"

/-- An argument located from an absolute directory is an absolute path. -/
theorem locate_absolute (hcwd : Absolute cwd) (arg : Option String) : Absolute (locate arg cwd) := by
  unfold locate
  split
  · exact hcwd
  split
  · exact hcwd
  split
  · assumption
  · unfold Absolute at hcwd ⊢
    rw [String.toList_append, String.toList_append, List.append_assoc, List.head?_append, hcwd]
    rfl

end TreeShell.WorkDir
