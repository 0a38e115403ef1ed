import Mathlib.Data.List.Infix
import TreeShell.Proofs.Session.Pipeline
import TreeShell.Proofs.Text.Cut

/-!
# Texts sifted line by line

`grep` cuts the text it is given into lines and joins those that hold its pattern. The next `grep`
cuts that text again, and no line and one empty line are the same text then.

* `hasInfix_iff`: a text holds a pattern exactly if the pattern stands somewhere in it.
* `rowsOf_joinRows`: lines are read back from their text, if there are any.
* `sift`, `sift_sift`: the lines that hold all of some patterns, and sifting once more.
* `execute_grep`: what `grep` does, with an empty text and without.
* `runSegments_sift`: **one `grep` after the other is one sieve for all patterns**, and complains once
  for each empty text it is given.
-/

namespace TreeShell

namespace Text

variable {p x : String} {ps qs : List String} {ls : List String}

/-! ## Infixes -/

theorem hasInfixChars_iff {p s : List Char} : hasInfixChars p s = true ↔ p <:+: s := by
  induction s with
  | nil => simp [hasInfixChars]
  | cons c s ih =>
    unfold hasInfixChars
    rw [Bool.or_eq_true, List.isPrefixOf_iff_prefix, ih, List.infix_cons_iff]

/-- **A text holds a pattern** exactly if the pattern stands somewhere in it. -/
theorem hasInfix_iff : hasInfix p x = true ↔ p.toList <:+: x.toList := hasInfixChars_iff

/-! ## Lines -/

/-- What stands between the line breaks of a text. -/
def rowsOf (x : String) : List String := (x.toList.splitOn '\n').map String.ofList

/-- Lines with a line break between them. -/
def joinRows (ls : List String) : String := "\n".intercalate ls

theorem joinRows_rowsOf (x : String) : joinRows (rowsOf x) = x := intercalate_cut rfl x

theorem break_notMem_line {l : String} (h : l ∈ rowsOf x) : '\n' ∉ l.toList := by
  obtain ⟨s, hs, rfl⟩ := List.mem_map.1 h
  rw [String.toList_ofList]
  exact notMem_of_mem_splitOn hs

/-- **Lines are read back from their text**, if there are any. -/
theorem rowsOf_joinRows (hne : ls ≠ []) (hls : ∀ l ∈ ls, '\n' ∉ l.toList) :
    rowsOf (joinRows ls) = ls := cut_intercalate rfl hne hls

/-! ## Sifting -/

/-- A line holds each of the patterns. -/
def HoldsAll (ps : List String) (line : String) : Prop := ∀ p ∈ ps, p.toList <:+: line.toList

instance (ps : List String) (line : String) : Decidable (HoldsAll ps line) :=
  inferInstanceAs (Decidable (∀ p ∈ ps, p.toList <:+: line.toList))

/-- The text of those lines that hold each of the patterns. -/
def sift (ps : List String) (x : String) : String := joinRows ((rowsOf x).filter (HoldsAll ps ·))

theorem sift_nil (x : String) : sift [] x = x := by
  unfold sift HoldsAll
  simp [joinRows_rowsOf]

/-- Which patterns there are matters, and neither their order nor how often there is one. -/
theorem sift_congr (h : ∀ p, p ∈ ps ↔ p ∈ qs) (x : String) : sift ps x = sift qs x := by
  have hholds : ∀ line, HoldsAll ps line ↔ HoldsAll qs line :=
    fun line => forall_congr' fun p => imp_congr_left (h p)
  unfold sift
  simp only [hholds]

/-- Nothing is left of an empty text. -/
theorem sift_empty (ps : List String) : sift ps "" = "" := by
  have hlines : rowsOf "" = [""] := by decide
  unfold sift
  rw [hlines, List.filter_cons]
  split <;> rfl

/-- **Sifted twice**, a text has lost the lines that do not hold all patterns. What no line is left of
is an empty text, and that has one line; but sifted again it is empty, too. -/
theorem sift_sift (ps qs : List String) (x : String) : sift qs (sift ps x) = sift (ps ++ qs) x := by
  have hboth : (rowsOf x).filter (HoldsAll (ps ++ qs) ·) =
      ((rowsOf x).filter (HoldsAll ps ·)).filter (HoldsAll qs ·) := by
    rw [List.filter_filter]
    refine List.filter_congr fun line _ => ?_
    rw [← Bool.decide_and, decide_eq_decide]
    unfold HoldsAll
    rw [List.forall_mem_append, and_comm]
  by_cases hne : (rowsOf x).filter (HoldsAll ps ·) = []
  · have hx : sift ps x = "" := by
      unfold sift
      rw [hne]
      rfl
    have hx' : sift (ps ++ qs) x = "" := by
      unfold sift
      rw [hboth, hne]
      rfl
    rw [hx, hx', sift_empty]
  · have hread : rowsOf (sift ps x) = (rowsOf x).filter (HoldsAll ps ·) :=
      rowsOf_joinRows hne fun l hl => break_notMem_line (List.mem_filter.1 hl).1
    have hsift : sift qs (sift ps x) = joinRows ((rowsOf (sift ps x)).filter (HoldsAll qs ·)) := rfl
    rw [hsift, hread, ← hboth]
    rfl

end Text

namespace Session

open Command (Segment)
open Store (Backend Tree)
open Text (sift)

variable {σ : Type} {s : Session σ}

/-- What `grep` says about an empty text. -/
def noInput : String := "No input provided to grep"

/-- The session after so many complaints about an empty text, and nothing else. -/
def warned (s : Session σ) (n : Nat) : Session σ :=
  { s with terminal.events := s.terminal.events ++ List.replicate n (.error noInput) }

/-- One `grep` with its pattern. -/
def grepFor (p : String) : Option Segment := some { name := "grep", args := [p] }

/-- The texts that come to the stages for some patterns, each the one that the stages before leave. -/
def fed (ps : List String) (x : String) : List String :=
  (List.range ps.length).map fun i => sift (ps.take i) x

theorem warned_zero (s : Session σ) : s.warned 0 = s := by
  unfold warned
  rw [List.replicate_zero, List.append_nil]

theorem warn_warned (s : Session σ) (n : Nat) : (s.warn noInput).warned n = s.warned (n + 1) := by
  unfold warned warn Machine.warn Terminal.writeError Terminal.record
  simp only [List.append_assoc, List.replicate_succ]
  rfl

theorem fed_cons (p : String) (ps : List String) (x : String) :
    fed (p :: ps) x = x :: fed ps (sift [p] x) := by
  unfold fed
  rw [List.length_cons, List.range_succ_eq_map, List.map_cons, List.map_map, List.take_zero,
    Text.sift_nil]
  refine congrArg (x :: ·) (List.map_congr_left fun i _ => ?_)
  rw [Function.comp_apply, List.take_succ_cons, Text.sift_sift, List.singleton_append]

variable [Backend σ]

/-- **What `grep` does** with a text, and with an empty one. -/
theorem execute_grep (h : "grep" ∈ s.commands) (p x : String) :
    s.execute "grep" [p] x = (.ok (.text (sift [p] x)), if x = "" then s.warn noInput else s) := by
  have hgrep : s.execute "grep" [p] x = s.grep (some p) x := execute_builtin .grep h [p] x
  rw [hgrep]
  unfold grep
  split
  · rename_i hx
    rw [hx, Text.sift_empty]
    rfl
  · have hone : ∀ line, Text.hasInfix p line = decide (Text.HoldsAll [p] line) := by
      intro line
      rw [Bool.eq_iff_iff, Text.hasInfix_iff, decide_eq_true_iff]
      unfold Text.HoldsAll
      simp
    have hlines : Text.hasInfix p = fun line => decide (Text.HoldsAll [p] line) := funext hone
    rw [Option.getD_some, hlines]
    rfl

/-- **One `grep` after the other**: what each of them leaves is sifted by the next. -/
theorem runSegments_sift (h : "grep" ∈ s.commands) (ps : List String) (x : String) :
    s.runSegments (.text x) (ps.map grepFor) =
      (.ok (.text (sift ps x)), s.warned ((fed ps x).count "")) := by
  induction ps generalizing s x with
  | nil =>
    have hfed : fed [] x = [] := rfl
    rw [hfed, List.count_nil, warned_zero, Text.sift_nil]
    rfl
  | cons p ps ih =>
    have hfirst : s.runSegment (grepFor p) x = _ := execute_grep h p x
    have hgo : Outcome.text (sift [p] x) ≠ .terminate := by simp
    rw [List.map_cons, runSegments_next hfirst hgo, fed_cons, List.count_cons]
    by_cases hx : x = ""
    · subst hx
      have hstill : "grep" ∈ (s.warn noInput).commands := h
      rw [if_pos rfl, if_pos (by simp), ih hstill, warn_warned, Text.sift_sift]
      rfl
    · rw [if_neg hx, if_neg (by simpa using hx), ih h, Text.sift_sift]
      rfl

/-- **One `grep` after the other is one sieve for all patterns.**

What is left are the lines that hold each of the patterns, in their order. So it does not matter in
which order the patterns come, or how often. Each stage that is given an empty text complains about
that once, and nothing else happens to the session. -/
theorem greps_conjoin (h : "grep" ∈ s.commands) (ps : List String) (x : String) :
    (∀ i, (s.runSegments (.text x) ((ps.take i).map grepFor)).1 =
      .ok (.text (sift (ps.take i) x))) ∧
    s.runSegments (.text x) (ps.map grepFor) =
      (.ok (.text (sift ps x)), s.warned ((fed ps x).count "")) ∧
    ∀ qs : List String, (∀ p, p ∈ qs ↔ p ∈ ps) →
      (s.runSegments (.text x) (qs.map grepFor)).1 = (s.runSegments (.text x) (ps.map grepFor)).1 := by
  refine ⟨fun i => ?_, runSegments_sift h ps x, fun qs hqs => ?_⟩
  · rw [runSegments_sift h]
  · rw [runSegments_sift h, runSegments_sift h, Text.sift_congr hqs]

/-- Two patterns and an empty one, in another order and one of them twice; and a pattern that no line
holds, after which two stages are given nothing. -/
theorem greps_conjoin_fresh :
    "grep" ∈ fresh.commands ∧
      (fresh.runSegments (.text "ab\n\na\nba\n") (["b", "", "a", "b"].map grepFor)).1 =
        .ok (.text "ab\nba") ∧
      fresh.runSegments (.text "ab\n") (["c", "\n", ""].map grepFor) =
        (.ok (.text ""), (fresh.warn noInput).warn noInput) := by
  have hgrep : "grep" ∈ fresh.commands := by decide
  obtain ⟨-, hall, hagain⟩ := greps_conjoin (s := fresh) hgrep ["a", "b", ""] "ab\n\na\nba\n"
  obtain ⟨-, hnone, -⟩ := greps_conjoin (s := fresh) hgrep ["c", "\n", ""] "ab\n"
  have hsame : ∀ p, p ∈ ["b", "", "a", "b"] ↔ p ∈ ["a", "b", ""] := by
    intro p
    simp only [List.mem_cons, List.not_mem_nil, or_false]
    grind
  refine ⟨hgrep, ?_, hnone.trans rfl⟩
  rw [hagain _ hsame, hall]
  rfl

end Session

end TreeShell
