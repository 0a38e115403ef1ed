import TreeShell.Proofs.Path.WorkDir

/-!
# Moving from directory to directory

What `cd` leads to depends only on the names that are left of a path, and a path put behind another
one goes on from the names that one has left.

* `Scanned`, `scanned_iff`: the names that are left, as a stack on which the path is scanned.
* `names_join`, `move_move`: **two moves, one after the other, are one move** along both paths.
* `move_back`: `..` leads back from a directory entered by its name.
* `Downward`, `parts_tidy`: `cd` and the store cut a path in different ways, and only the store keeps
  a `..`. A path without one has the same names in the store when it has been tidied.
-/

namespace TreeShell.WorkDir

open TreeShell.Path

variable {c p cwd : String}

/-! ## Part by part -/

/-- What stands between the slashes of a path. -/
def pieces (p : String) : List String := (p.toList.splitOn '/').map String.ofList

theorem pieces_join (p q : String) : pieces (p ++ "/" ++ q) = pieces p ++ pieces q := by
  have htext : (p ++ "/" ++ q).toList = p.toList ++ '/' :: q.toList := by simp
  unfold pieces
  rw [htext, List.splitOn_append_cons_self, List.map_append]

theorem pieces_of_notMem (h : '/' ∉ p.toList) : pieces p = [p] := by
  unfold pieces
  rw [List.splitOn_eq_singleton h, List.map_singleton, String.ofList_toList]

/-- The pieces of many paths, one behind the other. -/
theorem pieces_intercalate {ps : List String} (hne : ps ≠ []) :
    pieces ("/".intercalate ps) = ps.flatMap pieces := by
  induction ps with
  | nil => exact absurd rfl hne
  | cons p ps ih =>
    cases ps with
    | nil => simp
    | cons q ps =>
      rw [String.intercalate_cons_cons, pieces_join, ih (List.cons_ne_nil q ps), ← List.flatMap_cons]

/-- What stands between the slashes, with the slashes between, is the path. -/
theorem intercalate_pieces (p : String) : "/".intercalate (pieces p) = p :=
  Text.intercalate_cut rfl p

/-- The stack of names after some parts of a path: a part that names nothing is skipped, `..` takes
the last name back, and any other part is a name. -/
inductive Scanned : List String → List String → Prop
  | start : Scanned [] []
  | skip {front stack : List String} {part : String} (h : Scanned front stack)
      (hpart : part = "" ∨ part = ".") : Scanned (front ++ [part]) stack
  | pop {front stack : List String} (h : Scanned front stack) :
      Scanned (front ++ [".."]) stack.dropLast
  | push {front stack : List String} {part : String} (h : Scanned front stack)
      (hpart : part ∉ ["", ".", ".."]) : Scanned (front ++ [part]) (stack ++ [part])

variable {front stack : List String}

theorem Scanned.part (h : Scanned front stack) (part : String) :
    Scanned (front ++ [part]) (WorkDir.push stack part) := by
  unfold WorkDir.push
  split
  · rename_i hidle
    rw [Bool.or_eq_true, decide_eq_true_eq, decide_eq_true_eq] at hidle
    exact h.skip hidle
  rename_i hidle
  rw [Bool.or_eq_true, decide_eq_true_eq, decide_eq_true_eq, not_or] at hidle
  split
  · rename_i hdots
    subst hdots
    exact h.pop
  · rename_i hdots
    exact h.push (by simp [hidle, hdots])

theorem Scanned.foldl (h : Scanned front stack) (more : List String) :
    Scanned (front ++ more) (more.foldl WorkDir.push stack) := by
  induction more generalizing front stack with
  | nil =>
    rw [List.append_nil]
    exact h
  | cons part more ih =>
    have hnext := ih (h.part part)
    rw [List.append_assoc] at hnext
    exact hnext

theorem Scanned.eq_foldl (h : Scanned front stack) : stack = front.foldl WorkDir.push [] := by
  induction h with
  | start => rfl
  | skip h hpart ih =>
    rw [List.foldl_append, ← ih]
    rcases hpart with rfl | rfl <;> rfl
  | pop h ih =>
    rw [List.foldl_append, ← ih]
    rfl
  | push h hpart ih =>
    simp only [List.mem_cons, List.not_mem_nil, or_false, not_or] at hpart
    rw [List.foldl_append, ← ih]
    simp [WorkDir.push, hpart]

/-- **The names that are left of a path** are those on the stack when all parts have been scanned. -/
theorem scanned_iff : Scanned (pieces p) stack ↔ stack = names p := by
  constructor
  · exact Scanned.eq_foldl
  · rintro rfl
    exact Scanned.start.foldl (pieces p)

/-! ## One move after the other -/

/-- A path put behind another one goes on from the names that one has left. -/
theorem names_join (p q : String) : names (p ++ "/" ++ q) = (pieces q).foldl push (names p) := by
  have hnames : ∀ p, names p = (pieces p).foldl push [] := fun _ => rfl
  rw [hnames, hnames p, pieces_join, List.foldl_append]

theorem tidy_join (p q : String) : tidy (tidy p ++ "/" ++ q) = tidy (p ++ "/" ++ q) := by
  rw [tidy_eq, tidy_eq (p ++ "/" ++ q), names_join, names_join, names_tidy]

/-- A relative path is located behind the directory. -/
theorem locate_relative (hp : p ≠ "") (hrel : ¬ Absolute p) (cwd : String) :
    locate (some p) cwd = cwd ++ "/" ++ p := by
  unfold Absolute at hrel
  unfold locate
  simp only
  rw [if_neg hp, if_neg hrel]

theorem locate_of_absolute (hp : Absolute p) (cwd : String) : locate (some p) cwd = p := by
  unfold Absolute at hp
  have hne : p ≠ "" := by
    rintro rfl
    cases hp
  unfold locate
  simp only
  rw [if_neg hne, if_pos hp]

theorem join_ne_empty (p q : String) : p ++ "/" ++ q ≠ "" := by
  intro h
  have htext := congrArg String.toList h
  simp at htext

/-- A path with more behind it is absolute if it is without. -/
theorem absolute_join (hp : p ≠ "") (q : String) : Absolute (p ++ "/" ++ q) ↔ Absolute p := by
  have hne : p.toList ≠ [] := fun h => hp (String.toList_inj.1 h)
  obtain ⟨c, rest, hc⟩ := List.exists_cons_of_ne_nil hne
  unfold Absolute
  rw [String.toList_append, String.toList_append, hc]
  rfl

theorem locate_join (hp : p ≠ "") (q cwd : String) :
    locate (some (p ++ "/" ++ q)) cwd = locate (some p) cwd ++ "/" ++ q := by
  by_cases habs : Absolute p
  · rw [locate_of_absolute habs, locate_of_absolute ((absolute_join hp q).2 habs)]
  · have hrel : ¬ Absolute (p ++ "/" ++ q) := fun h => habs ((absolute_join hp q).1 h)
    rw [locate_relative hp habs, locate_relative (join_ne_empty p q) hrel]
    simp only [String.append_assoc]

/-- **Two moves, one after the other, are one move** along both paths. -/
theorem move_move {a b : String} (ha : a ≠ "") (hb : b ≠ "") (hrel : ¬ Absolute b) (cwd : String) :
    move (move cwd (some a)) (some b) = move cwd (some (a ++ "/" ++ b)) := by
  unfold move
  rw [locate_relative hb hrel, tidy_join, locate_join ha]

/-- Any number of moves, all but the first along relative paths, are one move along all of them. -/
theorem foldl_move {bs : List String} (hp : p ≠ "") (hbs : ∀ b ∈ bs, b ≠ "" ∧ ¬ Absolute b)
    (cwd : String) :
    (p :: bs).foldl (fun c target => move c (some target)) cwd =
      move cwd (some ("/".intercalate (p :: bs))) := by
  induction bs generalizing p with
  | nil => rw [String.intercalate_singleton, List.foldl_cons, List.foldl_nil]
  | cons b bs ih =>
    obtain ⟨hb, hrel⟩ := hbs b List.mem_cons_self
    have hnext := ih (join_ne_empty p b) fun c hc => hbs c (List.mem_cons_of_mem b hc)
    rw [List.foldl_cons, ← move_move hp hb hrel, String.intercalate_cons_append] at hnext
    rw [List.foldl_cons, List.foldl_cons, hnext, String.intercalate_cons_cons]

theorem Plain.relative (h : Plain c) : ¬ Absolute c :=
  fun habs => h.slash (List.mem_of_mem_head? habs)

theorem Plain.ne_empty (h : Plain c) : c ≠ "" := by
  rintro rfl
  exact h.full rfl

/-- **A move back** from a directory that was entered by its name. -/
theorem move_back (hcwd : tidy cwd = cwd) (hc : Plain c) :
    move (move cwd (some c)) (some "..") = cwd := by
  have hup : ".." ≠ "" ∧ ¬ Absolute ".." := by
    unfold Absolute
    decide
  have hpieces : pieces ".." = [".."] := by decide
  have hpop : ∀ stack, push stack ".." = stack.dropLast := fun _ => rfl
  rw [move_move hc.ne_empty hup.1 hup.2]
  unfold move
  rw [locate_join hc.ne_empty, locate_relative hc.ne_empty hc.relative, tidy_eq, names_join,
    names_join, pieces_of_notMem hc.slash, hpieces, List.foldl_cons, List.foldl_nil, List.foldl_cons,
    List.foldl_nil, push_plain hc, hpop, List.dropLast_concat, ← tidy_eq, hcwd]

/-! ## Paths that never go up -/

/-- No part of the path is `..`. -/
def Downward (p : String) : Prop := ".." ∉ pieces p

theorem downward_join {q : String} (hp : Downward p) (hq : Downward q) :
    Downward (p ++ "/" ++ q) := by
  unfold Downward
  rw [pieces_join, List.mem_append, not_or]
  exact ⟨hp, hq⟩

/-- What is left of a path never goes up. -/
theorem downward_tidy (p : String) : Downward (tidy p) := by
  have hroot : tidy p = "" ++ "/" ++ "/".intercalate (names p) := rfl
  rw [hroot]
  refine downward_join (by unfold Downward; decide) ?_
  unfold Downward
  by_cases hne : names p = []
  · rw [hne]
    decide
  · rw [pieces_intercalate hne]
    intro hdots
    obtain ⟨c, hc, hdots⟩ := List.mem_flatMap.1 hdots
    have hplain := names_plain p c hc
    rw [pieces_of_notMem hplain.slash, List.mem_singleton] at hdots
    subst hdots
    exact hplain.dots rfl

/-- A piece that names something. -/
def naming (piece : String) : Bool := piece ≠ "" && piece ≠ "."

/-- Where nothing is taken back, the names are the pieces that name something. -/
theorem foldl_push_downward {ps : List String} (h : ".." ∉ ps) (stack : List String) :
    ps.foldl push stack = stack ++ ps.filter naming := by
  induction ps generalizing stack with
  | nil => exact (List.append_nil stack).symm
  | cons piece ps ih =>
    rw [List.mem_cons, not_or] at h
    have hpush : push stack piece = stack ++ [piece].filter naming := by
      by_cases hempty : piece = ""
      · subst hempty
        simp [push, naming]
      by_cases hdot : piece = "."
      · subst hdot
        simp [push, naming]
      simp [push, naming, hempty, hdot, Ne.symm h.1]
    have hcons : (piece :: ps).filter naming = [piece].filter naming ++ ps.filter naming :=
      List.filter_append [piece] ps
    rw [List.foldl_cons, ih h.2, hpush, hcons, List.append_assoc]

/-- The pieces that `cd` drops have no name in the store, either. -/
theorem flatMap_naming (ps : List String) : (ps.filter naming).flatMap parts = ps.flatMap parts := by
  have hdropped : ∀ piece, naming piece = false → parts piece = [] := by
    intro piece hpiece
    by_cases hempty : piece = ""
    · subst hempty
      decide
    · have hdot : piece = "." := by simpa [naming, hempty] using hpiece
      subst hdot
      decide
  induction ps with
  | nil => rfl
  | cons piece ps ih =>
    rw [List.flatMap_cons, List.filter_cons]
    split
    · rw [List.flatMap_cons, ih]
    · rename_i hpiece
      rw [ih, hdropped piece (by simpa using hpiece), List.nil_append]

/-- The store finds in a tidy path what it finds in each of the names that are left. -/
theorem parts_tidy_names (p : String) : parts (tidy p) = (names p).flatMap parts := by
  have hroot : tidy p = "" ++ "/" ++ "/".intercalate (names p) := rfl
  have hempty : parts "" = [] := by decide
  rw [hroot, parts_join, parts_intercalate, hempty, List.nil_append]

/-- **Tidied, a path that never goes up** has the names in the store that it had before. A backslash
in a piece stays where it is, and the store cuts there. -/
theorem parts_tidy (h : Downward p) : parts (tidy p) = parts p := by
  have hnames : names p = (pieces p).filter naming := foldl_push_downward h []
  calc parts (tidy p) = (names p).flatMap parts := parts_tidy_names p
    _ = (pieces p).flatMap parts := by rw [hnames, flatMap_naming]
    _ = parts ("/".intercalate (pieces p)) := (parts_intercalate _).symm
    _ = parts p := by rw [intercalate_pieces]

/-- **In the store, a directory that was moved to and the path of the move** are followed by the same
entries, as long as the path never goes up. -/
theorem canonical_below_tidy (h : Downward p) (q : String) :
    canonical (tidy p ++ "/" ++ q) = canonical (p ++ "/" ++ q) :=
  canonical_join (canonical_eq_iff.2 (parts_tidy h)) q

/-- From inside a directory and from outside a file has one path in the store, if the way to the
directory does not go up. -/
theorem canonical_below_move {d f : String} (hcwd : tidy cwd = cwd) (hd : d ≠ "") (hdown : Downward d)
    (hf : f ≠ "") (hrel : ¬ Absolute f) :
    canonical (locate (some f) (move cwd (some d))) =
      canonical (locate (some (d ++ "/" ++ f)) cwd) := by
  have hway : Downward (locate (some d) cwd) := by
    by_cases habs : Absolute d
    · rw [locate_of_absolute habs]
      exact hdown
    · rw [locate_relative hd habs, ← hcwd]
      exact downward_join (downward_tidy cwd) hdown
  rw [locate_relative hf hrel, locate_join hd]
  exact canonical_below_tidy hway f

/-- The way up is not the same from inside: there `..` is taken back before the store sees it. -/
example : canonical (locate (some "f") (move "/d" (some ".."))) = "/f" ∧
    canonical (locate (some "../f") "/d") = "/d/../f" := by decide

end TreeShell.WorkDir
