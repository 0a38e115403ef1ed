import TreeShell.Text.Blank

/-!
# Texts cut at a character and joined again

* `intercalate_cons_eq`: a joined text is its first piece, and each other piece behind a
  separator.
* `mem_of_mem_intercalate`: what a joined text is made of.
* `mem_of_mem_splitOn`, `notMem_of_mem_splitOn`: what the pieces of a cut text are made of.
* `append_cons_inj`: a text is cut in one way at the first separator. `takeWhile_cut`: what stands
  before it.
* `exists_cut`, `intercalate_cut`, `cut_intercalate`: cutting and joining, for strings.
-/

namespace TreeShell.Text

variable {α : Type}

theorem intercalate_cons_eq (sep x : List α) (xs : List (List α)) :
    sep.intercalate (x :: xs) = x ++ xs.flatMap (sep ++ ·) := by
  induction xs generalizing x with
  | nil => rw [List.intercalate_singleton, List.flatMap_nil, List.append_nil]
  | cons y xs ih =>
    rw [List.intercalate_cons_cons, ih y, List.flatMap_cons, List.append_assoc, List.append_assoc]

/-- A joined text is made of its pieces and of separators. -/
theorem mem_of_mem_intercalate {sep : List α} {ss : List (List α)} {c : α}
    (hc : c ∈ sep.intercalate ss) : c ∈ sep ∨ ∃ s ∈ ss, c ∈ s := by
  cases ss with
  | nil => exact absurd hc List.not_mem_nil
  | cons x xs =>
    rw [intercalate_cons_eq] at hc
    rcases List.mem_append.1 hc with hc | hc
    · exact .inr ⟨x, List.mem_cons_self, hc⟩
    · obtain ⟨y, hy, hc⟩ := List.mem_flatMap.1 hc
      rcases List.mem_append.1 hc with hc | hc
      · exact .inl hc
      · exact .inr ⟨y, List.mem_cons_of_mem _ hy, hc⟩

/-- A piece of a cut text is made of characters of the text. -/
theorem mem_of_mem_splitOnP {p : Char → Bool} {s w : List Char} (h : w ∈ s.splitOnP p) {c : Char}
    (hc : c ∈ w) : c ∈ s := by
  induction s generalizing w with
  | nil => simp_all
  | cons d s ih =>
    rw [List.splitOnP_cons_eq_if_modifyHead] at h
    split at h
    · rcases List.mem_cons.1 h with rfl | h
      · exact absurd hc List.not_mem_nil
      · exact List.mem_cons_of_mem _ (ih h hc)
    · obtain ⟨v, vs, hs⟩ := List.exists_cons_of_ne_nil (List.splitOnP_ne_nil p s)
      rw [hs] at h ih
      -- the first piece has the first character on top of what it is in the rest of the text
      rcases List.mem_cons.1 h with rfl | h
      · rcases List.mem_cons.1 hc with rfl | hc
        · exact List.mem_cons_self
        · exact List.mem_cons_of_mem _ (ih List.mem_cons_self hc)
      · exact List.mem_cons_of_mem _ (ih (List.mem_cons_of_mem _ h) hc)

theorem mem_of_mem_splitOn {d c : Char} {s w : List Char} (h : w ∈ s.splitOn d) (hc : c ∈ w) :
    c ∈ s := mem_of_mem_splitOnP h hc

/-- A piece of a cut text does not hold the character of the cuts. -/
theorem notMem_of_mem_splitOn {d : Char} {s w : List Char} (h : w ∈ s.splitOn d) : d ∉ w := by
  intro hc
  have := not_of_mem_splitOnP (p := (· == d)) h hc
  simp at this

/-- A text is cut in one way at the first separator. -/
theorem append_cons_inj {d : α} {s s' t t' : List α} (hs : d ∉ s) (hs' : d ∉ s') :
    s ++ d :: t = s' ++ d :: t' ↔ s = s' ∧ t = t' := by
  constructor
  · intro h
    have hend : ∀ {u v w : List α}, d ∉ u → d :: v = u ++ d :: w → u = [] := by
      intro u v w hu h
      cases u with
      | nil => rfl
      | cons x u =>
        obtain ⟨rfl, -⟩ := List.cons.inj h
        exact absurd List.mem_cons_self hu
    rcases List.append_eq_append_iff.mp h with ⟨u, rfl, ht⟩ | ⟨u, rfl, ht⟩
    · obtain rfl := hend (fun hu => hs' (List.mem_append_right _ hu)) ht
      exact ⟨(List.append_nil s).symm, (List.cons.inj ht).2⟩
    · obtain rfl := hend (fun hu => hs (List.mem_append_right _ hu)) ht
      exact ⟨List.append_nil s', (List.cons.inj ht).2.symm⟩
  · rintro ⟨rfl, rfl⟩
    rfl

/-- A text without a separator is passed over on the way to the first one. -/
theorem passes [DecidableEq α] {d : α} {s : List α} (h : d ∉ s) :
    ∀ c ∈ s, decide (c ≠ d) = true :=
  fun _ hc => decide_eq_true fun heq => h (heq ▸ hc)

/-- What stands before the first separator. -/
theorem takeWhile_cut [DecidableEq α] {d : α} {s : List α} (h : d ∉ s) (t : List α) :
    (s ++ d :: t).takeWhile (· ≠ d) = s := by
  rw [List.takeWhile_append_of_pos (passes h), List.takeWhile_cons_of_neg (by simp),
    List.append_nil]

/-! ## Strings -/

theorem map_toList_ofList (ss : List (List Char)) : (ss.map String.ofList).map String.toList = ss := by
  have hid : String.toList ∘ String.ofList = id := funext fun s => String.toList_ofList
  rw [List.map_map, hid, List.map_id]

theorem map_ofList_toList (ss : List String) : (ss.map String.toList).map String.ofList = ss := by
  have hid : String.ofList ∘ String.toList = id := funext fun s => String.ofList_toList
  rw [List.map_map, hid, List.map_id]

variable {d : Char} {sep : String} {ss : List String}

/-- A text with a separator in it can be cut at the first. -/
theorem exists_cut (sep : String) (hsep : sep.toList = [d]) {x : String} (h : d ∈ x.toList) :
    ∃ front back : String, d ∉ front.toList ∧ x = front ++ sep ++ back := by
  obtain ⟨front, back, hcut, hfront⟩ := List.eq_append_cons_of_mem h
  refine ⟨String.ofList front, String.ofList back, by rwa [String.toList_ofList], ?_⟩
  apply String.toList_injective
  rw [hcut]
  simp [hsep]

/-- The pieces of a cut text, joined again, are the text. -/
theorem intercalate_cut (hsep : sep.toList = [d]) (x : String) :
    sep.intercalate ((x.toList.splitOn d).map String.ofList) = x := by
  apply String.toList_injective
  rw [String.toList_intercalate, hsep, map_toList_ofList]
  exact List.intercalate_splitOn d

/-- Joined texts are cut apart again, if there are any and none of them holds the separator. -/
theorem cut_intercalate (hsep : sep.toList = [d]) (hne : ss ≠ []) (hss : ∀ s ∈ ss, d ∉ s.toList) :
    ((sep.intercalate ss).toList.splitOn d).map String.ofList = ss := by
  have hpieces : ∀ s ∈ ss.map String.toList, d ∉ s := by
    intro s hs
    obtain ⟨c, hc, rfl⟩ := List.mem_map.1 hs
    exact hss c hc
  rw [String.toList_intercalate, hsep, List.splitOn_intercalate _ hpieces (by simpa using hne),
    map_ofList_toList]

end TreeShell.Text
