import Mathlib.Data.List.DropRight
import TreeShell.Proofs.Text.Cut

/-!
# Words between blanks

* `wordsOf_append_cons`: at a blank a text falls into two, and so do its words.
* `wordsOf_between`: blanks around a text add no word and change none.
* `wordsOf_spaced`: **words with a space between them are read back.**
* `trimChars_trimmed`, `Trimmed.trimChars_eq`: trimming leaves a text without blanks at its ends, and
  takes away nothing else.
-/

namespace TreeShell.Text

variable {s w lead trail : List Char} {c : Char}

/-- Nothing but blanks. -/
def Blanks (s : List Char) : Prop := ∀ c ∈ s, isBlank c = true

/-- A text that does not start or end with a blank. -/
@[mk_iff]
structure Trimmed (s : List Char) : Prop where
  head : ∀ c ∈ s.head?, isBlank c = false
  last : ∀ c ∈ s.getLast?, isBlank c = false

instance (s : List Char) : Decidable (Trimmed s) :=
  decidable_of_iff (s.head?.all (!isBlank ·) = true ∧ s.getLast?.all (!isBlank ·) = true) <| by
    simp [trimmed_iff, Option.all_eq_true]

theorem isBlank_space : isBlank ' ' = true := by decide

theorem blanks_nil : Blanks [] := fun _ h => absurd h List.not_mem_nil

theorem blanks_cons : Blanks (c :: s) ↔ isBlank c = true ∧ Blanks s := List.forall_mem_cons

theorem blanks_space : Blanks [' '] := blanks_cons.2 ⟨isBlank_space, blanks_nil⟩

theorem blanks_iff_allBlank {text : String} : Blanks text.toList ↔ allBlank text = true := by
  unfold Blanks allBlank
  rw [List.all_eq_true]

/-! ## Words -/

/-- **At a blank a text falls into two**, and so do its words. -/
theorem wordsOf_append_cons (hc : isBlank c = true) (s t : List Char) :
    wordsOf (s ++ c :: t) = wordsOf s ++ wordsOf t := by
  unfold wordsOf
  rw [List.splitOnP_append_cons s t hc, List.filter_append]

theorem wordsOf_cons (hc : isBlank c = true) (s : List Char) : wordsOf (c :: s) = wordsOf s := by
  have hcut := wordsOf_append_cons hc [] s
  have hnil : wordsOf [] = [] := by decide
  rwa [hnil, List.nil_append] at hcut

theorem wordsOf_blanks (hs : Blanks s) : wordsOf s = [] := by
  induction s with
  | nil => decide
  | cons c s ih =>
    obtain ⟨hc, hs⟩ := blanks_cons.1 hs
    rw [wordsOf_cons hc, ih hs]

/-- A text without a blank is one word. -/
theorem wordsOf_solid (hne : w ≠ []) (hw : ∀ c ∈ w, isBlank c = false) : wordsOf w = [w] := by
  unfold wordsOf
  rw [List.splitOnP_eq_singleton hw, List.filter_cons, if_pos (by simpa using hne), List.filter_nil]

theorem wordsOf_append_blanks (s : List Char) (ht : Blanks trail) :
    wordsOf (s ++ trail) = wordsOf s := by
  cases trail with
  | nil => rw [List.append_nil]
  | cons c trail =>
    obtain ⟨hc, ht⟩ := blanks_cons.1 ht
    rw [wordsOf_append_cons hc, wordsOf_blanks ht, List.append_nil]

/-- **Blanks around a text** add no word and change none. -/
theorem wordsOf_between (hl : Blanks lead) (ht : Blanks trail) (s : List Char) :
    wordsOf (lead ++ s ++ trail) = wordsOf s := by
  rw [wordsOf_append_blanks _ ht]
  induction lead with
  | nil => rfl
  | cons c lead ih =>
    obtain ⟨hc, hl⟩ := blanks_cons.1 hl
    rw [List.cons_append, wordsOf_cons hc, ih hl]

/-- **Words with a space between them are read back.** -/
theorem wordsOf_spaced {ws : List (List Char)} (hws : ∀ w ∈ ws, w ≠ [] ∧ ∀ c ∈ w, isBlank c = false) :
    wordsOf ([' '].intercalate ws) = ws := by
  induction ws with
  | nil => decide
  | cons w ws ih =>
    obtain ⟨⟨hne, hw⟩, hws⟩ := List.forall_mem_cons.1 hws
    cases ws with
    | nil => rw [List.intercalate_singleton, wordsOf_solid hne hw]
    | cons v vs =>
      have hcons : [' '].intercalate (w :: v :: vs) = w ++ ' ' :: [' '].intercalate (v :: vs) := by
        rw [List.intercalate_cons_cons, List.append_assoc, List.singleton_append]
      rw [hcons, wordsOf_append_cons isBlank_space, wordsOf_solid hne hw, ih hws,
        List.singleton_append]

/-- A word is not empty, has no blank, and is made of characters of the text. -/
theorem solid_of_mem_wordsOf (h : w ∈ wordsOf s) :
    w ≠ [] ∧ (∀ c ∈ w, isBlank c = false) ∧ ∀ c ∈ w, c ∈ s := by
  obtain ⟨hcut, hne⟩ := List.mem_filter.1 h
  exact ⟨of_decide_eq_true hne, fun c hc => not_isBlank_of_mem_wordsOf h hc,
    fun c hc => mem_of_mem_splitOnP hcut hc⟩

/-! ## Trimming -/

theorem trimChars_eq_rdropWhile (s : List Char) :
    trimChars s = (s.dropWhile isBlank).rdropWhile isBlank := rfl

/-- Nothing is left exactly of blanks. -/
theorem trimChars_eq_nil : trimChars s = [] ↔ Blanks s := by
  rw [trimChars_eq_rdropWhile, List.rdropWhile_eq_nil_iff, Blanks]
  constructor
  · intro h
    have hdrop : s.dropWhile isBlank = [] := by
      by_contra hne
      have hhead := List.head_dropWhile_not isBlank hne
      rw [h _ (List.head_mem hne)] at hhead
      cases hhead
    exact List.dropWhile_eq_nil_iff.1 hdrop
  · intro h
    rw [List.dropWhile_eq_nil_iff.2 h]
    exact fun c hc => absurd hc List.not_mem_nil

theorem trim_eq_empty {text : String} : trim text = "" ↔ allBlank text = true := by
  rw [← blanks_iff_allBlank, ← trimChars_eq_nil]
  exact String.ofList_eq_empty_iff

/-- **What trimming leaves** has no blank at its ends. -/
theorem trimChars_trimmed (s : List Char) : Trimmed (trimChars s) := by
  rw [trimChars_eq_rdropWhile]
  have hlast := List.rdropWhile_last_not isBlank (s.dropWhile isBlank)
  obtain ⟨cut, hcut⟩ := List.rdropWhile_prefix isBlank (s.dropWhile isBlank)
  generalize hu : (s.dropWhile isBlank).rdropWhile isBlank = u at hlast hcut
  constructor
  · -- the first character that is left is the one the dropping of blanks stopped at
    intro c hc
    obtain ⟨v, rfl⟩ := List.head?_eq_some_iff.1 hc
    have hstop := List.head?_dropWhile_not isBlank s
    rw [← hcut] at hstop
    exact hstop
  · intro c hc
    obtain ⟨v, rfl⟩ := List.getLast?_eq_some_iff.1 hc
    simpa using hlast (by simp)

/-- **Trimming takes away nothing but blanks at the ends.** -/
theorem Trimmed.trimChars_eq (h : Trimmed s) (hl : Blanks lead) : trimChars (lead ++ s) = s := by
  have hdrop : s.dropWhile isBlank = s := by
    cases s with
    | nil => rfl
    | cons c s => exact List.dropWhile_cons_of_neg (by simp [h.head c rfl])
  rw [trimChars_eq_rdropWhile, List.dropWhile_append_of_pos hl, hdrop, List.rdropWhile_eq_self_iff]
  intro hne
  rw [h.last _ (List.getLast?_eq_some_getLast hne)]
  exact Bool.false_ne_true

/-- A text without a blank has none at its ends. -/
theorem trimmed_of_solid (hs : ∀ c ∈ s, isBlank c = false) : Trimmed s :=
  ⟨fun _ hc => hs _ (List.mem_of_mem_head? hc), fun _ hc => hs _ (List.mem_of_mem_getLast? hc)⟩

theorem trim_solid {text : String} (h : ∀ c ∈ text.toList, isBlank c = false) : trim text = text := by
  have hchars := (trimmed_of_solid h).trimChars_eq blanks_nil
  exact (congrArg String.ofList hchars).trans String.ofList_toList

end TreeShell.Text
