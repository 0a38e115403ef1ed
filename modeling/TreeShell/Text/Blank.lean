/-!
# Blank characters

The characters that separate words, and the cuts made at them.

* `isBlank`: the Unicode property White_Space.
* `trim` takes the blanks off both ends, `words` lists the stretches between them.
* `not_isBlank_of_mem_wordsOf`: no word holds a blank.
-/

namespace TreeShell.Text

/-- The Unicode property White_Space. -/
def isBlank (c : Char) : Bool :=
  let n := c.toNat
  (0x09 ≤ n && n ≤ 0x0D) || n == 0x20 || n == 0x85 || n == 0xA0 || n == 0x1680 ||
    (0x2000 ≤ n && n ≤ 0x200A) || n == 0x2028 || n == 0x2029 || n == 0x202F || n == 0x205F ||
    n == 0x3000

/-- Drops the blanks at both ends. -/
def trimChars (s : List Char) : List Char :=
  ((s.dropWhile isBlank).reverse.dropWhile isBlank).reverse

/-- Drops the blanks at both ends. -/
def trim (s : String) : String :=
  String.ofList (trimChars s.toList)

/-- A text with nothing but blanks, the empty one included. -/
def allBlank (s : String) : Bool :=
  s.toList.all isBlank

/-- The stretches without a blank, in order; never an empty one. -/
def wordsOf (s : List Char) : List (List Char) :=
  (s.splitOnP isBlank).filter (· ≠ [])

/-- The stretches between two cuts hold no character at which a cut is made. -/
theorem not_of_mem_splitOnP {p : Char → Bool} {s w : List Char} (h : w ∈ s.splitOnP p) {c : Char}
    (hc : c ∈ w) : p c = false := by
  induction s generalizing w with
  | nil => simp_all
  | cons d s ih =>
    rw [List.splitOnP_cons_eq_if_modifyHead] at h
    split at h
    · rcases List.mem_cons.1 h with rfl | h
      · simp at hc
      · exact ih h hc
    · rename_i hd
      cases hs : s.splitOnP p with
      | nil => exact absurd hs (List.splitOnP_ne_nil p s)
      | cons v vs =>
        rw [hs] at h ih
        rcases List.mem_cons.1 h with rfl | h
        · rcases List.mem_cons.1 hc with rfl | hc
          · simpa using hd
          · exact ih (List.mem_cons_self ..) hc
        · exact ih (List.mem_cons_of_mem _ h) hc

theorem not_isBlank_of_mem_wordsOf {s w : List Char} (h : w ∈ wordsOf s) {c : Char} (hc : c ∈ w) :
    isBlank c = false :=
  not_of_mem_splitOnP (List.mem_filter.1 h).1 hc

/-- The words of a text. -/
def words (s : String) : List String :=
  (wordsOf s.toList).map String.ofList

end TreeShell.Text
