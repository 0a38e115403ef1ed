import Mathlib.Data.List.Induction
import TreeShell.Proofs.Path.Ancestors

/-!
# One path for all its spellings

The store keeps an entry under the canonical path, and goes up from there parent by parent.

* `Ascent`: the way up from a path. `ascent_iff`: it ends for every text, in one way.
* `prefixes_sorted`, `getLast?_prefixes`: the proper prefixes of a list, from the longest to none.
* `canonical_form`: **a path is its names**, and the way up takes them away one by one.
-/

namespace TreeShell.Path

variable {p : String} {ds es cs : List String}

/-! ## The way up -/

/-- The parent of `p`, the parent of that, and so on, until there is none. -/
inductive Ascent : String → List String → Prop
  | top {p : String} (h : parent? p = none) : Ascent p []
  | up {p d : String} {ds : List String} (h : parent? p = some d) (next : Ascent d ds) :
      Ascent p (d :: ds)

theorem Ascent.unique (h : Ascent p ds) (h' : Ascent p es) : ds = es := by
  induction h generalizing es with
  | top hnone =>
    cases h' with
    | top => rfl
    | up hsome =>
      rw [hnone] at hsome
      cases hsome
  | up hsome next ih =>
    cases h' with
    | top hnone =>
      rw [hnone] at hsome
      cases hsome
    | up hsome' next' =>
      obtain rfl := Option.some.inj (hsome.symm.trans hsome')
      rw [ih next']

/-- The way up leads through the ancestors. By induction on them: the parent is the first. -/
theorem ascent_ancestors (p : String) : Ascent p (ancestors p) := by
  generalize hds : ancestors p = ds
  induction ds generalizing p with
  | nil =>
    refine .top ?_
    cases hp : parent? p with
    | none => rfl
    | some d =>
      rw [ancestors_of_parent? hp] at hds
      cases hds
  | cons d ds ih =>
    obtain ⟨hp, hd⟩ := parent?_of_ancestors hds
    exact .up hp (ih d hd)

/-- **The way up ends for every text, in one way.** -/
theorem ascent_iff : Ascent p ds ↔ ds = ancestors p := by
  constructor
  · intro h
    exact h.unique (ascent_ancestors p)
  · rintro rfl
    exact ascent_ancestors p

/-! ## Prefixes -/

/-- The proper prefixes get shorter and shorter. -/
theorem prefixes_sorted (cs : List String) :
    (prefixes cs).Pairwise fun longer shorter => shorter.length < longer.length := by
  induction cs using List.reverseRecOn with
  | nil => exact .nil
  | append_singleton cs c ih =>
    rw [prefixes_concat]
    refine List.pairwise_cons.2 ⟨fun bs hbs => ?_, ih⟩
    obtain ⟨hbegins, hne⟩ := mem_prefixes.1 hbs
    exact Nat.lt_of_le_of_ne hbegins.length_le fun h => hne (hbegins.eq_of_length h)

/-- The last of them is empty. -/
theorem getLast?_prefixes (cs : List String) : (cs :: prefixes cs).getLast? = some [] := by
  induction cs using List.reverseRecOn with
  | nil => rfl
  | append_singleton cs c ih =>
    rw [prefixes_concat, List.getLast?_cons_cons]
    exact ih

/-! ## The canonical form -/

/-- **The canonical path is a normal form of the spellings of a path.**

It has the names of the path, and it is the same for two paths exactly if they have the same names;
taken of itself, it is itself. Its parent is the path of all names but the last. The way up from it
leads through the paths of the proper prefixes of the names, each once and the longest first, and ends
at the root. -/
theorem canonical_form (p : String) :
    parts (canonical p) = parts p ∧
    (∀ q, canonical p = canonical q ↔ parts p = parts q) ∧
    canonical (canonical p) = canonical p ∧
    (∀ cs c, parts p = cs ++ [c] →
      parent? (canonical p) = some (ofParts cs) ∧ parts (ofParts cs) = cs) ∧
    (∀ ds, Ascent (canonical p) ds ↔ ds = (prefixes (parts p)).map ofParts) ∧
    (∀ bs, bs ∈ prefixes (parts p) ↔ bs <+: parts p ∧ bs ≠ parts p) ∧
    ((prefixes (parts p)).Pairwise fun longer shorter => shorter.length < longer.length) ∧
    (canonical p :: (prefixes (parts p)).map ofParts).getLast? = some "/" := by
  have hok := partsOK_parts p
  have hparent : ∀ cs c, parts p = cs ++ [c] →
      parent? (canonical p) = some (ofParts cs) ∧ parts (ofParts cs) = cs := by
    intro cs c hcs
    rw [hcs] at hok
    unfold canonical
    rw [hcs]
    exact ⟨parent?_concat hok, parts_ofParts (partsOK_append.1 hok).1⟩
  have hascent : ∀ ds, Ascent (canonical p) ds ↔ ds = (prefixes (parts p)).map ofParts := by
    intro ds
    have hancestors : ancestors (canonical p) = _ := ancestors_ofParts hok
    rw [ascent_iff, hancestors]
  have hend : (canonical p :: (prefixes (parts p)).map ofParts).getLast? = some "/" := by
    have hway : canonical p :: (prefixes (parts p)).map ofParts =
        (parts p :: prefixes (parts p)).map ofParts := rfl
    rw [hway, List.getLast?_map, getLast?_prefixes, Option.map_some, ofParts_nil]
  exact ⟨parts_canonical p, fun q => canonical_eq_iff, canonical_canonical p, hparent, hascent,
    fun bs => mem_prefixes, prefixes_sorted _, hend⟩

/-- Backslashes, dots, empty parts, and names of more than one byte a character. -/
theorem canonical_form_mixed :
    let p := "é\\.\\..//日本/./c\\\\"
    parts p = ["é", "..", "日本"] ++ ["c"] ∧ canonical p = "/é/../日本/c" ∧
      canonical p = canonical "/é/../日本/c/" ∧ canonical p ≠ canonical "日本/c" ∧
      parent? (canonical p) = some "/é/../日本" ∧
      Ascent (canonical p) ["/é/../日本", "/é/..", "/é", "/"] := by
  intro p
  have hparts : parts p = ["é", "..", "日本"] ++ ["c"] := by decide
  obtain ⟨-, hsame, -, hparent, hascent, -⟩ := canonical_form p
  refine ⟨hparts, by decide, (hsame _).2 ?_, mt (hsame _).1 ?_, ?_, (hascent _).2 ?_⟩
  · decide
  · decide
  · rw [(hparent _ _ hparts).1]
    decide
  · rw [hparts]
    decide

end TreeShell.Path
