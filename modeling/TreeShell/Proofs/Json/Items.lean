import TreeShell.Proofs.Json.Fields

/-!
# Printed lists are read back

* `behindItem`: what is left of a printed list behind one of its items.
* `readItems_behind`: the items that follow are read, one after the other.
* `reads_list`: **a printed list comes back if its items do.**
-/

namespace TreeShell.Json

open Text

/-- The text of a list at the given depth from behind one of its items on, if these items follow. -/
def behindItem (depth : Nat) (items : List (List Char)) : List Char :=
  items.flatMap ([','] ++ newline (depth + 1) ++ ·) ++ (newline depth ++ [']'])

variable {α : Type} {one : Reader α} {depth : Nat} {c : Char} {s t rest : List Char}

theorem bracketed_items (depth : Nat) (item : List Char) (items : List (List Char)) :
    bracketed '[' ']' depth (item :: items) =
      '[' :: (newline (depth + 1) ++ (item ++ behindItem depth items)) := by
  rw [bracketed, List.map_cons, intercalate_cons_eq, List.flatMap_map, behindItem]
  · simp
  · simp

theorem behindItem_cons (depth : Nat) (item : List Char) (items : List (List Char)) :
    behindItem depth (item :: items) =
      ',' :: (newline (depth + 1) ++ (item ++ behindItem depth items)) := by
  unfold behindItem
  simp

theorem skipSpace_behindItem_nil (depth : Nat) (rest : List Char) :
    skipSpace (behindItem depth [] ++ rest) = ']' :: rest := by
  have hnil : behindItem depth [] ++ rest = newline depth ++ (']' :: rest) := by simp [behindItem]
  rw [hnil, skipSpace_newline]
  exact skipSpace_cons_solid (by decide)

/-- Behind an item there is a comma, or the line of the closing bracket. -/
theorem ends_behindItem (depth : Nat) (items : List (List Char)) (rest : List Char) :
    Ends (behindItem depth items ++ rest) := by
  intro c hc
  cases items with
  | nil => cases hc; exact .inr (by decide)
  | cons item items =>
    rw [behindItem_cons] at hc
    cases hc
    exact .inl rfl

/-- Every item takes at least one character. -/
theorem length_behindItem (depth : Nat) (items : List (List Char)) :
    items.length < (behindItem depth items).length := by
  induction items with
  | nil => simp [behindItem, newline]
  | cons item items ih =>
    rw [behindItem_cons]
    simp only [List.length_cons, List.length_append]
    omega

/-! ## From item to item -/

theorem nextItem_close (first : Bool) (h : skipSpace s = ']' :: rest) :
    nextItem first s = .ok none := by
  unfold nextItem
  rw [h]
  rfl

theorem nextItem_first (h : skipSpace s = c :: t) (hc : c ≠ ']') :
    nextItem true s = .ok (some (c :: t)) := by
  unfold nextItem
  rw [h]
  split
  · contradiction
  · rename_i heq
    exact absurd (List.cons.inj heq).1 hc
  · rename_i heq
    rw [if_pos rfl, heq]

theorem nextItem_comma (h : skipSpace s = c :: t) (hc : c ≠ ']') :
    nextItem false (',' :: s) = .ok (some (c :: t)) := by
  have hcomma : skipSpace (',' :: s) = ',' :: s := skipSpace_cons_solid (by decide)
  unfold nextItem
  rw [hcomma]
  simp [h, hc]

/-- The text of an item is read back, and does not look like the end of the list. -/
structure Item (one : Reader α) (text : List Char) (x : α) : Prop where
  reads : Reads one text x
  open_ : text.head? ≠ some ']'

/-- An item on its own line: where it starts, and what reading from there on gives. -/
theorem Item.line {x : α} {text : List Char} (h : Item one text x) (hrest : Ends rest)
    (depth : Nat) :
    ∃ c t, skipSpace (newline (depth + 1) ++ (text ++ rest)) = c :: t ∧ c ≠ ']' ∧
      one (c :: t) = .ok (x, rest) := by
  obtain ⟨c, t, htext, hc⟩ := h.reads.solid
  have hskip : skipSpace (newline (depth + 1) ++ (text ++ rest)) = text ++ rest := by
    rw [skipSpace_newline, h.reads.skipSpace_eq]
  have hone := h.reads.read (text ++ rest) rest h.reads.skipSpace_eq hrest
  have hcons : text ++ rest = c :: (t ++ rest) := by rw [htext, List.cons_append]
  rw [hcons] at hone
  refine ⟨c, t ++ rest, hskip.trans hcons, ?_, hone⟩
  rintro rfl
  exact h.open_ (by rw [htext]; rfl)

/-- **The items behind an item are read**, one after the other. -/
theorem readItems_behind (fuel : Nat) (xs : List α) (print : α → List Char)
    (hx : ∀ x ∈ xs, Item one (print x) x) (hf : xs.length < fuel) :
    readItems one fuel false (behindItem depth (xs.map print) ++ rest) = .ok (xs, rest) := by
  induction xs generalizing fuel with
  | nil =>
    obtain ⟨fuel, rfl⟩ := Nat.exists_eq_add_one_of_ne_zero (Nat.ne_zero_of_lt hf)
    have hclose := nextItem_close false (skipSpace_behindItem_nil depth rest)
    simp only [readItems, List.map_nil, hclose, skipSpace_behindItem_nil, bind, Except.bind]
    rfl
  | cons x xs ih =>
    obtain ⟨fuel, rfl⟩ := Nat.exists_eq_add_one_of_ne_zero (Nat.ne_zero_of_lt hf)
    obtain ⟨c, t, hskip, hc, hone⟩ := (hx x List.mem_cons_self).line
      (ends_behindItem depth (xs.map print) rest) depth
    have hnext := nextItem_comma hskip hc
    have hxs := ih fuel (fun z hz => hx z (List.mem_cons_of_mem _ hz)) (by simp at hf; omega)
    rw [List.map_cons, behindItem_cons]
    simp only [List.cons_append, List.append_assoc, readItems, hnext, hone, hxs, bind, Except.bind]

/-- **A printed list is read back** if its items are. -/
theorem reads_list (xs : List α) (print : α → List Char) (hx : ∀ x ∈ xs, Item one (print x) x)
    {limit : Nat} (hl : 1 < limit) :
    Reads (asList limit one) (bracketed '[' ']' depth (xs.map print)) xs := by
  refine ⟨?_, fun s rest hs _ => ?_⟩
  · cases xs with
    | nil => exact ⟨'[', [']'], rfl, by decide⟩
    | cons x xs =>
      rw [List.map_cons, bracketed_items]
      exact ⟨'[', _, rfl, by decide⟩
  · have hasList : ∀ inner, skipSpace s = '[' :: inner →
        asList limit one s = readItems one (inner.length + 1) true inner := by
      intro inner hs
      unfold asList
      rw [hs]
      show (enter limit _ >>= fun _ => readItems one _ true _) = _
      rw [enter_ok hl]
      rfl
    cases xs with
    | nil =>
      have hclose : skipSpace (']' :: rest) = ']' :: rest := skipSpace_cons_solid (by decide)
      have hnext := nextItem_close true hclose
      have hs : skipSpace s = '[' :: ']' :: rest := hs
      rw [hasList _ hs]
      unfold readItems
      rw [hnext]
      simp only [hclose, bind, Except.bind]
      rfl
    | cons x xs =>
      rw [List.map_cons, bracketed_items] at hs
      simp only [List.cons_append, List.append_assoc] at hs
      obtain ⟨c, t, hskip, hc, hone⟩ := (hx x List.mem_cons_self).line
        (ends_behindItem depth (xs.map print) rest) depth
      have hnext := nextItem_first hskip hc
      rw [hasList _ hs]
      unfold readItems
      rw [hnext]
      simp only [hone, bind, Except.bind]
      rw [readItems_behind _ xs print (fun z hz => hx z (List.mem_cons_of_mem _ hz))]
      have hlength := length_behindItem depth (xs.map print)
      rw [List.length_map] at hlength
      simp only [List.length_append]
      omega

end TreeShell.Json
