import TreeShell.Json.Reader

/-!
# Printed texts and numbers are read back

* `Reads`: a reader takes a printed value back, between the blanks before it and what may end it.
* `readEscape_escaped`: an escape gives the character it was made of.
* `readText_escaped`: so a text between quotes comes back, whatever it holds and whatever follows.
* `readNumber_digits`: the digits of a number give the number.
* `Reads.whole`: so does a text that holds a printed value and nothing else.
-/

namespace TreeShell.Json

open Text

/-- What may follow a printed value: nothing, a comma or a blank. -/
def Ends (rest : List Char) : Prop := ∀ c, rest.head? = some c → c = ',' ∨ isSpace c = true

/-- **The reader takes the text for the value**: the text starts with no blank, and read from before
any blanks it gives the value, and what follows is left. -/
structure Reads {α : Type} (one : Reader α) (text : List Char) (x : α) : Prop where
  solid : ∃ c t, text = c :: t ∧ isSpace c = false
  read : ∀ s rest, skipSpace s = text ++ rest → Ends rest → one s = .ok (x, rest)

variable {α : Type} {one : Reader α} {text rest s t : List Char} {x : α} {c : Char} {n limit : Nat}

theorem skipSpace_cons_blank (h : isSpace c = true) : skipSpace (c :: s) = skipSpace s :=
  List.dropWhile_cons_of_pos h

theorem skipSpace_cons_solid (h : isSpace c = false) : skipSpace (c :: s) = c :: s :=
  List.dropWhile_cons_of_neg (by rw [h]; exact Bool.false_ne_true)

theorem skipSpace_append (h : ∀ c ∈ s, isSpace c = true) : skipSpace (s ++ t) = skipSpace t := by
  induction s with
  | nil => rfl
  | cons c s ih =>
    rw [List.cons_append, skipSpace_cons_blank (h c List.mem_cons_self),
      ih fun d hd => h d (List.mem_cons_of_mem _ hd)]

theorem Reads.skipSpace_eq (h : Reads one text x) : skipSpace (text ++ rest) = text ++ rest := by
  obtain ⟨c, t, rfl, hc⟩ := h.solid
  exact skipSpace_cons_solid hc

/-- Behind a colon and a blank. -/
theorem Reads.behind_blank (h : Reads one text x) (he : Ends rest) :
    one (' ' :: (text ++ rest)) = .ok (x, rest) := by
  refine h.read _ rest ?_ he
  rw [skipSpace_cons_blank rfl, h.skipSpace_eq]

/-! ## Texts -/

theorem hexValue?_hexDigit : ∀ n < 16, hexValue? (hexDigit n) = some n := by decide

/-- Two zeros and two digits, for a character below 256. -/
theorem readHex_digits (h : n < 256) (rest : List Char) :
    readHex ('0' :: '0' :: hexDigit (n / 16) :: hexDigit (n % 16) :: rest) = .ok (n, rest) := by
  have h0 : hexValue? '0' = some 0 := by decide
  have h1 := hexValue?_hexDigit (n / 16) (by omega)
  have h2 := hexValue?_hexDigit (n % 16) (by omega)
  have hn : ((0 * 16 + 0) * 16 + n / 16) * 16 + n % 16 = n := by omega
  unfold readHex
  simp only [h0, h1, h2, hn]

/-- **An escape gives the character it was made of**; a character that is not escaped is none of
those that end a text or are refused in it. -/
theorem readEscape_escaped (c : Char) :
    (∃ e, escaped c = '\\' :: e ∧ ∀ rest, readEscape (e ++ rest) = .ok (c, rest)) ∨
      (escaped c = [c] ∧ c ≠ '"' ∧ c ≠ '\\' ∧ ¬ c.toNat < 0x20) := by
  -- one case for each line of `escaped`
  unfold escaped
  split
  · rename_i h; subst h; exact Or.inl ⟨_, rfl, fun _ => rfl⟩
  rename_i hq
  split
  · rename_i h; subst h; exact Or.inl ⟨_, rfl, fun _ => rfl⟩
  rename_i hb
  split
  · rename_i h; subst h; exact Or.inl ⟨_, rfl, fun _ => rfl⟩
  split
  · rename_i h; subst h; exact Or.inl ⟨_, rfl, fun _ => rfl⟩
  split
  · rename_i h; subst h; exact Or.inl ⟨_, rfl, fun _ => rfl⟩
  split
  · rename_i h
    have hc : c = '\x08' := Char.toNat_inj.1 h
    subst hc; exact Or.inl ⟨_, rfl, fun _ => rfl⟩
  split
  · rename_i h
    have hc : c = '\x0c' := Char.toNat_inj.1 h
    subst hc; exact Or.inl ⟨_, rfl, fun _ => rfl⟩
  split
  · rename_i h
    refine Or.inl ⟨_, rfl, fun rest => ?_⟩
    have hn : c.toNat < 256 := by omega
    have hx := readHex_digits hn rest
    simp only [List.cons_append, List.nil_append, readEscape, hx]
    -- far below the halves of characters
    have hl : ¬ 0xDC00 ≤ c.toNat := by omega
    have hh : ¬ 0xD800 ≤ c.toNat := by omega
    simp [hl, hh, bind, Except.bind]
  · rename_i h; exact Or.inr ⟨rfl, hq, hb, h⟩

theorem readChars_escaped (s : List Char) (h : s.length < n) :
    readChars n (s.flatMap escaped ++ '"' :: rest) = .ok (s, rest) := by
  induction s generalizing n with
  | nil =>
    obtain ⟨n, rfl⟩ := Nat.exists_eq_add_one_of_ne_zero (Nat.ne_zero_of_lt h)
    rfl
  | cons c s ih =>
    obtain ⟨n, rfl⟩ := Nat.exists_eq_add_one_of_ne_zero (Nat.ne_zero_of_lt h)
    have hs := ih (n := n) (by simp at h; omega)
    rw [List.flatMap_cons, List.append_assoc]
    rcases readEscape_escaped c with ⟨e, he, hr⟩ | ⟨he, hq, hb, hc⟩
    · rw [he, List.cons_append]
      simp only [readChars, hr, hs, bind, Except.bind]
    · rw [he, List.singleton_append, readChars]
      · rw [if_neg hc, hs]; rfl
      · exact hq
      · exact hb

/-- Escaping makes no text shorter. -/
theorem length_le_escaped (s : List Char) : s.length ≤ (s.flatMap escaped).length := by
  induction s with
  | nil => exact Nat.le_refl 0
  | cons c s ih =>
    have hc : 1 ≤ (escaped c).length := by
      rcases readEscape_escaped c with ⟨e, he, -⟩ | ⟨he, -⟩ <;> rw [he] <;> simp
    rw [List.flatMap_cons, List.length_append, List.length_cons]
    omega

/-- **A text comes back**, from behind its opening quote. -/
theorem readText_escaped (s : String) (rest : List Char) :
    readText (s.toList.flatMap escaped ++ '"' :: rest) = .ok (s, rest) := by
  have hl := length_le_escaped s.toList
  unfold readText
  rw [readChars_escaped s.toList (by rw [List.length_append, List.length_cons]; omega)]
  simp only [bind, Except.bind, String.ofList_toList]

theorem quotedText_append (s : String) (rest : List Char) :
    quotedText s ++ rest = '"' :: (s.toList.flatMap escaped ++ '"' :: rest) := by
  simp [quotedText]

theorem quotedText_solid (s : String) : ∃ c t, quotedText s = c :: t ∧ isSpace c = false :=
  ⟨'"', _, rfl, by decide⟩

theorem reads_text (s : String) : Reads asText (quotedText s) s := by
  refine ⟨quotedText_solid s, fun t rest h _ => ?_⟩
  unfold asText
  rw [h, quotedText_append]
  exact readText_escaped s rest

theorem reads_variant {known : List String} {s : String} (hk : s ∈ known) :
    Reads (asVariant known) (quotedText s) s := by
  refine ⟨quotedText_solid s, fun t rest h _ => ?_⟩
  unfold asVariant
  rw [h, quotedText_append]
  simp only [readText_escaped, bind, Except.bind]
  rw [if_pos (List.contains_iff_mem.2 hk)]

/-- As a value of any kind. -/
theorem reads_textValue (s : String) (depth : Nat) :
    Reads (readValue (depth + 1)) (quotedText s) (.text s) := by
  refine ⟨quotedText_solid s, fun t rest h _ => ?_⟩
  have hf : readFound ('"' :: (s.toList.flatMap escaped ++ '"' :: rest)) = .ok (.text s, rest) := by
    simp only [readFound, readText_escaped, bind, Except.bind]
  unfold readValue
  rw [h, quotedText_append]
  show (readFound _ >>= fun p => Except.ok (p.1.value, p.2)) = _
  rw [hf]; rfl

/-! ## Numbers -/

theorem le_ofDigitChars (ds : List Char) (m : Nat) : m ≤ Nat.ofDigitChars 10 ds m := by
  rw [Nat.ofDigitChars_eq_ofDigitChars_zero]
  have hpow : 0 < 10 ^ ds.length := Nat.pow_pos (by omega)
  have := Nat.le_mul_of_pos_left m hpow
  omega

theorem digit_solid (h : c.isDigit = true) : isSpace c = false ∧ c ≠ '-' := by
  have hne : ∀ d : Char, d.isDigit = false → c ≠ d := by
    rintro d hd rfl; rw [h] at hd; cases hd
  refine ⟨?_, hne '-' (by decide)⟩
  unfold isSpace
  simp [hne ' ' (by decide), hne '\n' (by decide), hne '\t' (by decide), hne '\r' (by decide)]

/-- Digits are added up to what they stand for, if that is within the limit. -/
theorem addDigits_append (ds : List Char) (m count : Nat) (hd : ∀ c ∈ ds, c.isDigit = true)
    (hl : Nat.ofDigitChars 10 ds m ≤ limit) (hr : startsWithDigit rest = false) :
    addDigits limit m count (ds ++ rest) = (Nat.ofDigitChars 10 ds m, count + ds.length, rest) := by
  induction ds generalizing m count with
  | nil =>
    cases rest with
    | nil => rfl
    | cons c rest =>
      have hc : c.isDigit = false := hr
      simp [addDigits, hc]
  | cons c ds ih =>
    have hz : '0'.toNat = 48 := rfl
    rw [Nat.ofDigitChars_cons, Nat.mul_comm, hz] at hl ⊢
    have hc := hd c List.mem_cons_self
    -- what has been added up so far is at most the whole
    have hle := le_ofDigitChars ds (m * 10 + (c.toNat - 48))
    rw [List.cons_append, addDigits, if_pos (by simp [hc]; omega),
      ih _ _ (fun d h => hd d (List.mem_cons_of_mem _ h)) hl, List.length_cons]
    congr 2; omega

/-- Only zero starts with a zero. -/
theorem toDigits_head (h : (Nat.toDigits 10 n).head? = some '0') : n = 0 := by
  induction n using Nat.strongRecOn with
  | ind n ih =>
    rw [Nat.toDigits_eq_if (by omega)] at h
    split at h
    · rename_i hn
      have : ∀ m < 10, Nat.digitChar m = '0' → m = 0 := by decide
      exact this n hn (Option.some.inj h)
    · rename_i hn
      obtain ⟨c, ds, hc⟩ := List.exists_cons_of_ne_nil (Nat.toDigits_ne_nil (n := n / 10) (b := 10))
      have := ih (n / 10) (by omega) (by rw [hc] at h ⊢; exact h)
      omega

/-- **A number comes back** from its digits. -/
theorem readNumber_digits (h : n ≤ maxUnsigned) (he : Ends rest) :
    readNumber false (Nat.toDigits 10 n ++ rest) = .ok (.integer n, rest) := by
  -- nothing that follows could still belong to the number
  have hrest : ∀ c t, rest = c :: t → c.isDigit = false ∧ c ≠ '.' ∧ c ≠ 'e' ∧ c ≠ 'E' := by
    rintro c t rfl
    rcases he c rfl with rfl | hc
    · decide
    · unfold isSpace at hc
      simp only [Bool.or_eq_true, decide_eq_true_eq] at hc
      rcases hc with ((rfl | rfl) | rfl) | rfl <;> decide
  have hstart : startsWithDigit rest = false := by
    cases hr : rest with
    | nil => rfl
    | cons c t => exact (hrest c t hr).1
  have hafter : readAfterWhole false n rest = .ok (.integer n, rest) := by
    cases hr : rest with
    | nil => rfl
    | cons c t =>
      obtain ⟨-, h1, h2, h3⟩ := hrest c t hr
      rw [readAfterWhole]
      · rfl
      · intro d hd; exact h1 (List.cons.inj hd).1
      · intro d hd; exact h2 (List.cons.inj hd).1
      · intro d hd; exact h3 (List.cons.inj hd).1
  have hval : Nat.ofDigitChars 10 (Nat.toDigits 10 n) 0 = n :=
    Nat.ofDigitChars_toDigits (by omega) (by omega)
  have hle : Nat.ofDigitChars 10 (Nat.toDigits 10 n) 0 ≤ maxUnsigned := by rw [hval]; exact h
  have hadd := addDigits_append (Nat.toDigits 10 n) 0 0
    (fun c hc => Nat.isDigit_of_mem_toDigits (by omega) (by omega) hc) hle hstart
  rw [hval] at hadd
  obtain ⟨c, ds, hc⟩ := List.exists_cons_of_ne_nil (Nat.toDigits_ne_nil (n := n) (b := 10))
  by_cases hz : c = '0'
  · -- a leading zero stands alone
    have hn : n = 0 := toDigits_head (by rw [hc, hz]; rfl)
    subst hn
    rw [Nat.toDigits_zero, List.singleton_append, readNumber, if_neg (by rw [hstart]; simp)]
    exact hafter
  · have hdig : c.isDigit = true :=
      Nat.isDigit_of_mem_toDigits (b := 10) (n := n) (by omega) (by omega) (by rw [hc]; simp)
    rw [hc, List.cons_append] at hadd ⊢
    rw [readNumber]
    · simp only [hdig, hadd, hstart, if_true]
      exact hafter
    · exact hz

/-- A number within the limit of its place. -/
theorem reads_nat (kind : String) (h : n ≤ limit) (hl : limit ≤ maxUnsigned) :
    Reads (asNat kind limit) (Number.integer n).print n := by
  have hp : (Number.integer n).print = Nat.toDigits 10 n := by
    show (toString (Int.ofNat n)).toList = _
    exact Nat.toList_repr
  obtain ⟨c, ds, hc⟩ := List.exists_cons_of_ne_nil (Nat.toDigits_ne_nil (n := n) (b := 10))
  have hdig : c.isDigit = true :=
    Nat.isDigit_of_mem_toDigits (b := 10) (n := n) (by omega) (by omega) (by rw [hc]; simp)
  rw [hp]
  refine ⟨⟨c, ds, hc, (digit_solid hdig).1⟩, fun t rest ht he => ?_⟩
  have hn := readNumber_digits (Nat.le_trans h hl) he
  have hb : asBounded kind limit (.integer n) rest = .ok (n, rest) := if_pos h
  unfold asNat
  rw [ht]
  rw [hc, List.cons_append] at hn ⊢
  split
  · rename_i heq; cases heq
  · rename_i heq; exact absurd (List.cons.inj heq).1 (digit_solid hdig).2
  · have hs : startsWithDigit (c :: (ds ++ rest)) = true := hdig
    simp only [hs, hn, if_true, bind, Except.bind]
    exact hb

/-! ## Whole texts -/

/-- A text that holds a printed value and nothing else gives the value. -/
theorem Reads.whole (h : Reads one text x) : readWhole one (String.ofList text) = .ok x := by
  have hread : one text = .ok (x, []) := by
    refine h.read text [] ?_ (fun c hc => by cases hc)
    have hskip : skipSpace (text ++ []) = text ++ [] := h.skipSpace_eq
    rw [List.append_nil] at hskip ⊢
    exact hskip
  unfold readWhole
  rw [String.toList_ofList]
  simp only [readOnly, hread, bind, Except.bind]
  rfl

end TreeShell.Json
