import Mathlib.Data.List.Infix
import TreeShell.Proofs.Text.Cut
import TreeShell.Settings.Variables

/-!
# The references in a text

A text consists of plain stretches and references in one way, and to fill it is to exchange each
reference for the value of its variable.

* `Opens`: a complete reference stands at the beginning of a text. `Unbroken`: in a text there is
  nowhere one begins.
* `split_reference`, `split_char`: what one step of the scan passes over.
* `Decomposes`: a text laid out in plain stretches and references. `decomposes_iff`: **every text is
  laid out in one way**, in its `stretches`.
* `fill_one_pass`: **the scan goes once from left to right**, and never through a value it put in.
-/

namespace TreeShell.Settings

variable {c : Char} {s text name : List Char}

/-! ## Complete references -/

/-- A name that can be referred to: it is not empty, and there is no closing brace in it. -/
def IsName (name : List Char) : Prop := name ≠ [] ∧ '\x7d' ∉ name

/-- A complete reference stands at the beginning of the text. -/
def Opens (text : List Char) : Prop :=
  ∃ name rest, IsName name ∧ text = (Piece.reference name).written ++ rest

theorem reference_written (name rest : List Char) :
    (Piece.reference name).written ++ rest = '$' :: '\x7b' :: (name ++ '\x7d' :: rest) := by
  simp only [Piece.written, List.cons_append, List.append_assoc, List.nil_append]

/-- The scan finds exactly the complete references. -/
theorem reference?_eq_some : reference? text = some name ↔
    IsName name ∧ ∃ rest, text = (Piece.reference name).written ++ rest := by
  constructor
  · intro h
    unfold reference? at h
    split at h
    · next s =>
      simp only [Option.ite_none_right_eq_some, Bool.and_eq_true, decide_eq_true_eq,
        List.contains_iff_mem, Option.some.injEq] at h
      obtain ⟨⟨hne, hbrace⟩, hname⟩ := h
      -- the first closing brace ends the name
      obtain ⟨before, rest, rfl, hfirst⟩ := List.eq_append_cons_of_mem hbrace
      rw [Text.takeWhile_cut hfirst] at hname hne
      subst hname
      exact ⟨⟨hne, hfirst⟩, rest, (reference_written before rest).symm⟩
    · cases h
  · rintro ⟨⟨hne, hfirst⟩, rest, rfl⟩
    rw [reference_written]
    simp only [reference?, Text.takeWhile_cut hfirst]
    simp [hne]

theorem opens_iff : Opens text ↔ (reference? text).isSome := by
  rw [Option.isSome_iff_exists]
  constructor
  · rintro ⟨name, rest, hname, htext⟩
    exact ⟨name, reference?_eq_some.2 ⟨hname, rest, htext⟩⟩
  · rintro ⟨name, h⟩
    obtain ⟨hname, rest, htext⟩ := reference?_eq_some.1 h
    exact ⟨name, rest, hname, htext⟩

instance : DecidablePred Opens := fun _ => decidable_of_iff _ opens_iff.symm

/-! ## The scan -/

/-- A character that belongs to the piece before is passed over. -/
theorem splitAfter_append (s rest : List Char) :
    Piece.splitAfter s.length (s ++ rest) = Piece.split rest := by
  induction s with
  | nil => rfl
  | cons c s ih => exact ih

/-- **A complete reference is one piece**, and the scan goes on behind it. -/
theorem split_reference (hname : IsName name) (rest : List Char) :
    Piece.split ((Piece.reference name).written ++ rest) =
      .reference name :: Piece.split rest := by
  have hfound : reference? ((Piece.reference name).written ++ rest) = some name :=
    reference?_eq_some.2 ⟨hname, rest, rfl⟩
  have hrest : '\x7b' :: (name ++ '\x7d' :: rest) = ('\x7b' :: name ++ ['\x7d']) ++ rest := by simp
  have hlength : name.length + 2 = ('\x7b' :: name ++ ['\x7d']).length := by simp
  rw [reference_written] at hfound ⊢
  rw [Piece.split, Piece.splitAfter, hfound]
  simp only
  rw [hrest, hlength, splitAfter_append]

/-- **Any other character is a piece of its own.** -/
theorem split_char (h : ¬ Opens (c :: s)) : Piece.split (c :: s) = .char c :: Piece.split s := by
  have hnone : reference? (c :: s) = none := by
    rw [opens_iff, Bool.not_eq_true, Option.isSome_eq_false_iff, Option.isNone_iff_eq_none] at h
    exact h
  rw [Piece.split, Piece.splitAfter, hnone]
  rfl

/-! ## Layouts -/

/-- No complete reference begins in `s` where `text` follows, wherever it would end. -/
def Unbroken (s text : List Char) : Prop := ∀ t, t <:+ s → t ≠ [] → ¬ Opens (t ++ text)

theorem unbroken_nil (text : List Char) : Unbroken [] text :=
  fun _ ht hne => absurd (List.suffix_nil.1 ht) hne

theorem unbroken_cons :
    Unbroken (c :: s) text ↔ ¬ Opens (c :: (s ++ text)) ∧ Unbroken s text := by
  constructor
  · intro h
    exact ⟨h (c :: s) List.suffix_rfl (List.cons_ne_nil c s),
      fun t ht => h t (ht.trans (List.suffix_cons c s))⟩
  · rintro ⟨hc, hs⟩ t ht hne
    rcases List.suffix_cons_iff.1 ht with rfl | ht
    · exact hc
    · exact hs t ht hne

/-- A part of a text. -/
inductive Stretch
  | plain (s : List Char)
  | reference (name : List Char)
deriving DecidableEq

/-- What a stretch stands for. A reference to a variable that is not set stands for nothing. -/
def Stretch.value (env : Environment) : Stretch → List Char
  | plain s => s
  | reference name =>
    match env.get? (String.ofList name) with
    | some value => value.toList
    | none => []

/-- The stretches, one behind the other, are the text, so no reference begins inside another. In a
plain stretch no complete reference begins. It is not empty, and it goes on to a reference or to the
end of the text. -/
inductive Decomposes : List Char → List Stretch → Prop
  | nil : Decomposes [] []
  | plain {s text : List Char} {parts : List Stretch} (hs : s ≠ []) (hunbroken : Unbroken s text)
      (hend : ∀ t after, parts ≠ .plain t :: after) (next : Decomposes text parts) :
      Decomposes (s ++ text) (.plain s :: parts)
  | reference {name text : List Char} {parts : List Stretch} (hname : IsName name)
      (next : Decomposes text parts) :
      Decomposes ((Piece.reference name).written ++ text) (.reference name :: parts)

namespace Stretch

/-- The stretches with one more plain character in front. -/
def lead (c : Char) : List Stretch → List Stretch
  | .plain s :: parts => .plain (c :: s) :: parts
  | parts => .plain [c] :: parts

/-- The stretches that some pieces come to. -/
def ofPieces : List Piece → List Stretch
  | [] => []
  | .char c :: pieces => lead c (ofPieces pieces)
  | .reference name :: pieces => .reference name :: ofPieces pieces

end Stretch

/-- The stretches of a text. -/
def stretches (text : List Char) : List Stretch := Stretch.ofPieces (Piece.split text)

variable {parts : List Stretch}

theorem stretches_reference (hname : IsName name) (rest : List Char) :
    stretches ((Piece.reference name).written ++ rest) = .reference name :: stretches rest := by
  rw [stretches, split_reference hname]
  rfl

theorem stretches_char (h : ¬ Opens (c :: s)) :
    stretches (c :: s) = Stretch.lead c (stretches s) := by
  rw [stretches, split_char h]
  rfl

/-- Characters at which no reference begins come to one stretch, by induction on them. -/
theorem stretches_plain (hs : s ≠ []) (hunbroken : Unbroken s text)
    (hend : ∀ t after, stretches text ≠ .plain t :: after) :
    stretches (s ++ text) = .plain s :: stretches text := by
  induction s with
  | nil => exact absurd rfl hs
  | cons c s ih =>
    obtain ⟨hc, hrest⟩ := unbroken_cons.1 hunbroken
    rw [List.cons_append, stretches_char hc]
    cases s with
    | nil =>
      rw [List.nil_append]
      cases hparts : stretches text with
      | nil => rfl
      | cons part parts =>
        cases part with
        | plain t => exact absurd hparts (hend t parts)
        | reference name => rfl
    | cons d s =>
      rw [ih (List.cons_ne_nil d s) hrest]
      rfl

/-- A character at which no reference begins goes to the stretch behind it. -/
theorem Decomposes.char (h : Decomposes text parts) (hc : ¬ Opens (c :: text)) :
    Decomposes (c :: text) (Stretch.lead c parts) := by
  have halone : Unbroken [c] text := unbroken_cons.2 ⟨hc, unbroken_nil text⟩
  cases h with
  | nil => exact .plain (List.cons_ne_nil c []) halone (by simp) .nil
  | plain hs hunbroken hend next =>
    exact .plain (List.cons_ne_nil c _) (unbroken_cons.2 ⟨hc, hunbroken⟩) hend next
  | reference hname next =>
    exact .plain (List.cons_ne_nil c []) halone (by simp) (.reference hname next)

/-- Every text is laid out in its stretches. By induction on its length: the scan passes over a
reference at a time, or over a character. -/
theorem decomposes_stretches (text : List Char) : Decomposes text (stretches text) := by
  induction hlength : text.length using Nat.strong_induction_on generalizing text with
  | _ n ih =>
    subst hlength
    cases text with
    | nil => exact .nil
    | cons c s =>
      by_cases hopens : Opens (c :: s)
      · obtain ⟨name, rest, hname, htext⟩ := hopens
        have hshorter : rest.length < (c :: s).length := by
          rw [htext, reference_written]
          simp only [List.length_cons, List.length_append]
          omega
        rw [htext, stretches_reference hname]
        exact .reference hname (ih _ hshorter rest rfl)
      · rw [stretches_char hopens]
        exact (ih _ (Nat.lt_succ_self _) s rfl).char hopens

/-- **Every text is laid out in one way.** -/
theorem decomposes_iff : Decomposes text parts ↔ parts = stretches text := by
  constructor
  · intro h
    induction h with
    | nil => rfl
    | plain hs hunbroken hend next ih =>
      rw [ih] at hend
      rw [stretches_plain hs hunbroken hend, ih]
    | reference hname next ih => rw [stretches_reference hname, ih]
  · rintro rfl
    exact decomposes_stretches text

instance (text : List Char) (parts : List Stretch) : Decidable (Decomposes text parts) :=
  decidable_of_iff _ decomposes_iff.symm

/-! ## Filling -/

theorem value_lead (env : Environment) (c : Char) (parts : List Stretch) :
    (Stretch.lead c parts).flatMap (Stretch.value env) =
      c :: parts.flatMap (Stretch.value env) := by
  cases parts with
  | nil => rfl
  | cons part parts => cases part <;> rfl

theorem value_reference (env : Environment) (name : List Char) :
    (Stretch.reference name).value env = (Piece.reference name).value env := by
  simp only [Stretch.value, Piece.value, Environment.getD]
  cases env.get? (String.ofList name) <;> rfl

/-- The stretches stand for what the pieces stand for. -/
theorem value_ofPieces (env : Environment) (pieces : List Piece) :
    (Stretch.ofPieces pieces).flatMap (Stretch.value env) = pieces.flatMap (Piece.value env) := by
  induction pieces with
  | nil => rfl
  | cons piece pieces ih =>
    cases piece with
    | char c =>
      rw [Stretch.ofPieces, value_lead, ih]
      rfl
    | reference name =>
      rw [Stretch.ofPieces, List.flatMap_cons, List.flatMap_cons, ih, value_reference]

/-- A filled text, told by the layout of the text. -/
theorem Decomposes.fill_eq {text : String} (h : Decomposes text.toList parts) (env : Environment) :
    fill env text = String.ofList (parts.flatMap (Stretch.value env)) := by
  rw [decomposes_iff.1 h, stretches, value_ofPieces]
  rfl

/-- A text in which no complete reference begins is one plain stretch. -/
theorem decomposes_plain (hne : text ≠ []) (h : ∀ rest, rest <:+ text → ¬ Opens rest) :
    Decomposes text [.plain text] := by
  have hunbroken : Unbroken text [] := by
    intro t ht _
    rw [List.append_nil]
    exact h t ht
  have hwhole := Decomposes.plain hne hunbroken (by simp) .nil
  rwa [List.append_nil] at hwhole

/-- **Filling is a single pass from left to right.**

A text is laid out in plain stretches and references in one way, which has nothing to do with any
variable. In every environment the filled text is made of the plain stretches as they are and of a
value, or nothing, in place of each reference; a reference that comes with a value stays as it is. A
text without a complete reference stays the same. -/
theorem fill_one_pass (text : String) :
    (∃! parts, Decomposes text.toList parts) ∧
    (∀ parts, Decomposes text.toList parts →
      ∀ env, fill env text = String.ofList (parts.flatMap (Stretch.value env))) ∧
    ((∀ rest, rest <:+ text.toList → ¬ Opens rest) → ∀ env, fill env text = text) := by
  refine ⟨⟨stretches text.toList, decomposes_stretches _, fun parts h => decomposes_iff.1 h⟩,
    fun parts h => h.fill_eq, ?_⟩
  intro hplain env
  by_cases hne : text.toList = []
  · have hempty : Decomposes text.toList [] := by
      rw [hne]
      exact .nil
    rw [hempty.fill_eq env, ← String.ofList_toList (s := text), hne]
    rfl
  · rw [(decomposes_plain hne hplain).fill_eq env, List.flatMap_singleton]
    exact String.ofList_toList

/-- A stray sign before a reference, a value that looks like a reference, references without a name or
without an end, and names with a sign, a brace or a line end in them. -/
theorem fill_one_pass_corners :
    let env : Environment :=
      ⟨[("A", "$\x7bB\x7d"), ("B", "b"), ("P$\x7bB", "odd")], none⟩
    let text := "$$\x7bA\x7d $\x7b\x7d $\x7bP$\x7bB\x7d: $\x7bN\nM\x7d $\x7b"
    let stray := "$ \x7bB\x7d $\x7b\x7d $\x7b"
    let parts := [.plain ['$'], .reference ['A'], .plain " $\x7b\x7d ".toList,
      .reference "P$\x7bB".toList, .plain ": ".toList, .reference "N\nM".toList,
      .plain " $\x7b".toList]
    Decomposes text.toList parts ∧ (∀ other, Decomposes text.toList other → other = parts) ∧
      fill env text = "$$\x7bB\x7d $\x7b\x7d odd:  $\x7b" ∧
      (∀ rest, rest <:+ stray.toList → ¬ Opens rest) ∧ fill env stray = stray := by
  intro env text stray parts
  obtain ⟨hunique, hfill, -⟩ := fill_one_pass text
  have hparts : Decomposes text.toList parts := by decide
  have hstray : ∀ rest ∈ stray.toList.tails, ¬ Opens rest := by decide
  refine ⟨hparts, fun other hother => hunique.unique hother hparts, ?_, ?_, ?_⟩
  · rw [hfill parts hparts env]
    decide
  · exact fun rest h => hstray rest ((List.mem_tails rest _).2 h)
  · exact (fill_one_pass stray).2.2 (fun rest h => hstray rest ((List.mem_tails rest _).2 h)) env

end TreeShell.Settings
