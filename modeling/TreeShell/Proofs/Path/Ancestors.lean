import TreeShell.Proofs.Path.Parts

/-!
# Ancestors of a canonical path

The questions the store asks of the text of a path, answered by its names.

* `parent?_concat`: the text before the last slash is the path without its last name
  (`parent?_canonical` for any spelling).
* `rank_parent?`: every parent is nearer to the root. So the chain of parents ends for every text,
  and goes on step by step (`ancestors_eq`).
* `ancestors_ofParts`: the chain of parents goes through the proper prefixes, longest first.
* `Above`, `above_iff`: one path above another, by its names.
* `below_isPrefixOf`: keys that start with a directory and a slash are those of its descendants.
* `childName?_eq_some`: the names listed in a directory are those of the paths one name longer.
* `below_iff_mem_ancestors`: the same for paths that are known to be canonical, without their names.
-/

namespace TreeShell.Path

variable {cs ds : List String} {c : String}

/-- The root has no parent. -/
theorem parent?_root : parent? "/" = none := by
  unfold parent?; rw [if_pos rfl]

theorem ofParts_ne_root (h : PartsOK cs) (hne : cs ≠ []) : ofParts cs ≠ "/" :=
  mt (ofParts_eq_root h).1 hne

/-- **The parent of a path** is the path without its last name. -/
theorem parent?_concat (h : PartsOK (cs ++ [c])) : parent? (ofParts (cs ++ [c])) = some (ofParts cs) := by
  have hne : cs ++ [c] ≠ [] := by simp
  have hc := (partsOK_append.1 h).2 c List.mem_cons_self
  -- read backwards, the last name ends at the last slash
  have hr : (ofParts (cs ++ [c])).toList.reverse = c.toList.reverse ++ '/' :: (stem cs).reverse := by
    rw [toList_ofParts hne]; simp
  have hd : (c.toList.reverse ++ '/' :: (stem cs).reverse).dropWhile (· ≠ '/') =
      '/' :: (stem cs).reverse := by
    rw [List.dropWhile_append_of_pos]
    · simp
    · intro x hx
      have : x ≠ '/' := by rintro rfl; exact hc.slash (List.mem_reverse.1 hx)
      simpa using this
  unfold parent?
  rw [if_neg (ofParts_ne_root h hne), hr, hd, List.drop_one, List.tail_cons]
  by_cases hcs : cs = []
  · subst hcs; rw [ofParts_nil]; rfl
  · have hs : stem cs ≠ [] := by
      have := length_le_stem cs
      intro h0
      rw [h0] at this
      exact hcs (List.eq_nil_of_length_eq_zero (Nat.le_zero.1 this))
    split
    · rename_i h0; exact absurd (List.reverse_eq_nil_iff.1 h0) hs
    · rw [List.reverse_reverse, ← toList_ofParts hcs, String.ofList_toList]

/-- The parent of a path in any spelling, and for the root the root itself. -/
theorem parent?_canonical (p : String) :
    (parent? (canonical p)).getD "/" = ofParts (parts p).dropLast := by
  have hok := partsOK_parts p
  unfold canonical
  rcases List.eq_nil_or_concat (parts p) with hnil | ⟨bs, c, hlast⟩
  · rw [hnil, ofParts_nil, parent?_root, List.dropLast_nil, ofParts_nil]
    rfl
  · rw [List.concat_eq_append] at hlast
    rw [hlast] at hok ⊢
    rw [parent?_concat hok, List.dropLast_concat]
    rfl

/-- The proper prefixes of a list, longest first. -/
def prefixes (cs : List String) : List (List String) :=
  (List.range cs.length).reverse.map cs.take

theorem prefixes_nil : prefixes [] = [] := rfl

theorem prefixes_concat (cs : List String) (c : String) :
    prefixes (cs ++ [c]) = cs :: prefixes cs := by
  unfold prefixes
  rw [List.length_append, List.length_singleton, List.range_succ, List.reverse_append]
  simp only [List.reverse_cons, List.reverse_nil, List.nil_append, List.cons_append, List.map_cons,
    List.take_left']
  congr 1
  apply List.map_congr_left
  intro n hn
  rw [List.mem_reverse, List.mem_range] at hn
  exact List.take_append_of_le_length (Nat.le_of_lt hn)

theorem mem_prefixes {bs : List String} : bs ∈ prefixes cs ↔ bs <+: cs ∧ bs ≠ cs := by
  unfold prefixes
  simp only [List.mem_map, List.mem_reverse, List.mem_range]
  constructor
  · rintro ⟨n, hn, rfl⟩
    refine ⟨List.take_prefix n cs, fun h => ?_⟩
    have := congrArg List.length h
    rw [List.length_take] at this
    omega
  · rintro ⟨hp, hne⟩
    refine ⟨bs.length, ?_, (List.prefix_iff_eq_take.1 hp).symm⟩
    exact Nat.lt_of_le_of_ne hp.length_le fun h => hne (hp.eq_of_length h)

/-! ## The way to the root -/

/-- How far a path is from the root at most. -/
def rank (p : String) : Nat := if p = "/" then 0 else p.length + 1

theorem rank_le (p : String) : rank p ≤ p.length + 1 := by
  unfold rank
  split
  · exact Nat.zero_le _
  · exact Nat.le_refl _

/-- **A parent is nearer to the root**, whatever the text of the path. -/
theorem rank_parent? {p d : String} (h : parent? p = some d) : rank d < rank p := by
  unfold parent? at h
  split at h
  · cases h
  rename_i hroot
  have hp : rank p = p.length + 1 := if_neg hroot
  rw [hp]
  split at h
  · obtain rfl := Option.some.inj h
    exact Nat.succ_pos _
  · rename_i hrest
    obtain rfl := Option.some.inj h
    -- what is left is shorter: at least the last slash is cut off
    have hpos := List.length_pos_iff.2 hrest
    have hle := (List.dropWhile_suffix (l := p.toList.reverse) (· ≠ '/')).length_le
    rw [List.length_drop] at hpos
    rw [List.length_reverse, String.length_toList] at hle
    refine Nat.lt_of_le_of_lt (rank_le _) ?_
    rw [String.length_ofList, List.length_reverse, List.length_drop]
    omega

/-- Looking for parents beyond the root finds nothing more. -/
theorem ancestorsUpTo_enough {p : String} {n m : Nat} (hn : rank p ≤ n) (hm : rank p ≤ m) :
    ancestorsUpTo n p = ancestorsUpTo m p := by
  induction n generalizing p m with
  | zero =>
    cases hp : parent? p with
    | none => cases m <;> simp only [ancestorsUpTo, hp]
    | some d =>
      have hd := rank_parent? hp
      omega
  | succ n ih =>
    cases hp : parent? p with
    | none => cases m <;> simp only [ancestorsUpTo, hp]
    | some d =>
      have hd := rank_parent? hp
      obtain ⟨m, rfl⟩ : ∃ k, m = k + 1 := ⟨m - 1, by omega⟩
      simp only [ancestorsUpTo, hp]
      have hdn : rank d ≤ n := by omega
      have hdm : rank d ≤ m := by omega
      rw [ih hdn hdm]

/-- **Ancestors step by step**: the parent if there is one, and the ancestors of the parent. -/
theorem ancestors_eq (p : String) :
    ancestors p = match parent? p with
      | none => []
      | some d => d :: ancestors d := by
  unfold ancestors
  rw [ancestorsUpTo]
  cases hp : parent? p with
  | none => rfl
  | some d =>
    have hd := rank_parent? hp
    have hle := rank_le p
    simp only
    rw [ancestorsUpTo_enough (by omega) (rank_le d)]

theorem ancestors_of_parent? {p d : String} (hp : parent? p = some d) :
    ancestors p = d :: ancestors d := by
  rw [ancestors_eq, hp]

theorem ancestors_root : ancestors "/" = [] := by
  rw [ancestors_eq, parent?_root]

/-- The ancestors of a path, if it has one at all, start with its parent. -/
theorem parent?_of_ancestors {p d : String} {l : List String} (h : ancestors p = d :: l) :
    parent? p = some d ∧ ancestors d = l := by
  cases hp : parent? p with
  | none =>
    rw [ancestors_eq, hp] at h
    cases h
  | some d' =>
    rw [ancestors_of_parent? hp] at h
    obtain ⟨rfl, rfl⟩ := List.cons.inj h
    exact ⟨rfl, rfl⟩

theorem rank_of_mem_ancestors {p d : String} (h : d ∈ ancestors p) : rank d < rank p := by
  generalize hl : ancestors p = l at h
  -- one step up the chain of parents at a time
  induction l generalizing p with
  | nil => cases h
  | cons x l ih =>
    obtain ⟨hp, hx⟩ := parent?_of_ancestors hl
    have hlt := rank_parent? hp
    rcases List.mem_cons.1 h with rfl | h
    · exact hlt
    · exact Nat.lt_trans (ih hx h) hlt

theorem self_notMem_ancestors (p : String) : p ∉ ancestors p :=
  fun h => Nat.lt_irrefl _ (rank_of_mem_ancestors h)

theorem ne_of_mem_ancestors {p d : String} (h : d ∈ ancestors p) : d ≠ p :=
  ne_of_mem_of_not_mem h (self_notMem_ancestors p)

/-- What stands above an ancestor is an ancestor. -/
theorem ancestors_trans {p d e : String} (hd : d ∈ ancestors p) (he : e ∈ ancestors d) :
    e ∈ ancestors p := by
  generalize hl : ancestors p = l at hd ⊢
  induction l generalizing p with
  | nil => cases hd
  | cons x l ih =>
    obtain ⟨-, hx⟩ := parent?_of_ancestors hl
    rcases List.mem_cons.1 hd with rfl | hd
    · rw [hx] at he
      exact List.mem_cons_of_mem _ he
    · exact List.mem_cons_of_mem _ (ih hx hd)

/-- On the way to the root no path is passed twice. -/
theorem ancestors_nodup (p : String) : (p :: ancestors p).Nodup := by
  generalize hl : ancestors p = l
  induction l generalizing p with
  | nil => exact List.pairwise_singleton _ p
  | cons d l ih =>
    have hnot := self_notMem_ancestors p
    rw [hl] at hnot
    obtain ⟨-, hd⟩ := parent?_of_ancestors hl
    exact List.nodup_cons.2 ⟨hnot, ih d hd⟩

/-- **The ancestors of a path** are the paths of its proper prefixes, longest first. -/
theorem ancestors_ofParts (h : PartsOK cs) : ancestors (ofParts cs) = (prefixes cs).map ofParts := by
  generalize hn : cs.length = n
  induction n generalizing cs with
  | zero =>
    obtain rfl := List.eq_nil_of_length_eq_zero hn
    rw [ofParts_nil, ancestors_root, prefixes_nil, List.map_nil]
  | succ n ih =>
    -- the parent has all names but the last
    rcases List.eq_nil_or_concat cs with rfl | ⟨bs, c, rfl⟩
    · cases hn
    rw [List.concat_eq_append] at h hn ⊢
    have hbs : bs.length = n := by simpa using hn
    rw [ancestors_of_parent? (parent?_concat h), prefixes_concat, List.map_cons,
      ih (partsOK_append.1 h).1 hbs]

theorem mem_ancestors (h : PartsOK cs) {d : String} :
    d ∈ ancestors (ofParts cs) ↔ ∃ bs, bs <+: cs ∧ bs ≠ cs ∧ ofParts bs = d := by
  rw [ancestors_ofParts h, List.mem_map]
  constructor
  · rintro ⟨bs, hb, rfl⟩
    obtain ⟨h1, h2⟩ := mem_prefixes.1 hb
    exact ⟨bs, h1, h2, rfl⟩
  · rintro ⟨bs, h1, h2, rfl⟩
    exact ⟨bs, mem_prefixes.2 ⟨h1, h2⟩, rfl⟩

/-- A path has as many ancestors as it has names. -/
theorem length_ancestors (h : PartsOK cs) : (ancestors (ofParts cs)).length = cs.length := by
  rw [ancestors_ofParts h, List.length_map]
  unfold prefixes
  rw [List.length_map, List.length_reverse, List.length_range]

/-- `d` stands above `p`: it has the first names of `p`, but not all of them. -/
def Above (d p : String) : Prop := ∃ cs, cs <+: parts p ∧ cs ≠ parts p ∧ ofParts cs = d

/-- **What stands above a path** are its ancestors. -/
theorem above_iff {d p : String} : Above d p ↔ d ∈ ancestors (canonical p) :=
  (mem_ancestors (partsOK_parts p)).symm

theorem partsOK_of_isPrefix {bs : List String} (h : PartsOK cs) (hp : bs <+: cs) : PartsOK bs :=
  fun c hc => h c (hp.subset hc)

/-! ## What lies below a directory -/

/-- Where two texts agree up to a slash, what stands before it is the same. -/
theorem slash_prefix_iff {s t x y : List Char} (hs : '/' ∉ s) (ht : '/' ∉ t)
    (hy : y = [] ∨ y.head? = some '/') : s ++ '/' :: x <+: t ++ y ↔ s = t ∧ '/' :: x <+: y := by
  induction s generalizing t with
  | nil =>
    cases t with
    | nil => simp
    | cons b t =>
      have hb : '/' ≠ b := fun h => ht (h ▸ List.mem_cons_self)
      simp [List.cons_prefix_cons, hb]
  | cons a s ih =>
    have ha : a ≠ '/' := fun h => hs (h ▸ List.mem_cons_self)
    cases t with
    | nil =>
      rcases hy with rfl | hy
      · simp
      · obtain ⟨y, rfl⟩ := List.head?_eq_some_iff.1 hy
        simp [List.cons_prefix_cons, ha]
    | cons b t =>
      rw [List.cons_append, List.cons_append, List.cons_prefix_cons,
        ih (fun h => hs (List.mem_cons_of_mem _ h)) (fun h => ht (List.mem_cons_of_mem _ h)),
        List.cons.injEq, and_assoc]

theorem stem_head (ds : List String) : stem ds = [] ∨ (stem ds).head? = some '/' := by
  cases ds with
  | nil => exact Or.inl rfl
  | cons d ds => exact Or.inr rfl

theorem stem_prefix_iff (hc : PartsOK cs) (hd : PartsOK ds) :
    stem cs ++ ['/'] <+: stem ds ↔ ∃ c rest, ds = cs ++ c :: rest := by
  induction cs generalizing ds with
  | nil =>
    cases ds with
    | nil => simp
    | cons d ds => simp [List.cons_prefix_cons]
  | cons c cs ih =>
    obtain ⟨hc, hcs⟩ := partsOK_cons.1 hc
    cases ds with
    | nil => simp
    | cons d ds =>
      obtain ⟨hd, hds⟩ := partsOK_cons.1 hd
      obtain ⟨x, hx⟩ : ∃ x, stem cs ++ ['/'] = '/' :: x := by
        cases cs with
        | nil => exact ⟨[], rfl⟩
        | cons e cs => exact ⟨_, rfl⟩
      have h1 : stem (c :: cs) ++ ['/'] = '/' :: (c.toList ++ '/' :: x) := by
        rw [stem_cons, List.cons_append, List.append_assoc, hx]
      rw [h1, stem_cons, List.cons_prefix_cons, slash_prefix_iff hc.slash hd.slash (stem_head ds), ← hx,
        ih hcs hds, String.toList_inj]
      constructor
      · rintro ⟨-, rfl, b, rest, rfl⟩; exact ⟨b, rest, rfl⟩
      · rintro ⟨b, rest, h⟩
        obtain ⟨rfl, rfl⟩ := List.cons.inj h
        exact ⟨rfl, rfl, b, rest, rfl⟩

theorem below_ofParts (h : PartsOK cs) : below (ofParts cs) = stem cs ++ ['/'] := by
  unfold below
  by_cases hne : cs = []
  · subst hne; rw [ofParts_nil]; rfl
  · rw [if_neg (ofParts_ne_root h hne), toList_ofParts hne]

/-- **Descendants by text.** Of the keys other than the root, those that start with a directory and
a slash belong to longer paths. -/
theorem below_isPrefixOf (hc : PartsOK cs) (hd : PartsOK ds) (hne : ds ≠ []) :
    (below (ofParts cs)).isPrefixOf (ofParts ds).toList = true ↔ ∃ c rest, ds = cs ++ c :: rest := by
  rw [below_ofParts hc, toList_ofParts hne, List.isPrefixOf_iff_prefix, stem_prefix_iff hc hd]

/-- The key of the root lies below no directory but the root, by the text. -/
theorem below_root (hc : PartsOK cs) (hp : (below (ofParts cs)).isPrefixOf "/".toList = true) :
    cs = [] := by
  rw [below_ofParts hc, List.isPrefixOf_iff_prefix] at hp
  have hle := hp.length_le
  have h1 : "/".toList.length = 1 := by decide
  rw [List.length_append, List.length_singleton, h1] at hle
  have hl := length_le_stem cs
  exact List.eq_nil_of_length_eq_zero (by omega)

theorem childName?_append {rest : List String} (h : PartsOK (cs ++ c :: rest)) :
    childName? (ofParts cs) (ofParts (cs ++ c :: rest)) = if rest = [] then some c else none := by
  have hcs := (partsOK_append.1 h).1
  obtain ⟨hc, -⟩ := partsOK_cons.1 (partsOK_append.1 h).2
  have hne : cs ++ c :: rest ≠ [] := by simp
  have hk : ofParts (cs ++ c :: rest) ≠ ofParts cs := by
    rw [Ne, ofParts_inj h hcs]; simp
  have hdrop : (ofParts (cs ++ c :: rest)).toList.drop (below (ofParts cs)).length =
      c.toList ++ stem rest := by
    have hs : stem (cs ++ c :: rest) = (stem cs ++ ['/']) ++ (c.toList ++ stem rest) := by simp
    rw [below_ofParts hcs, toList_ofParts hne, hs, List.drop_left]
  unfold childName?
  simp only [hdrop]
  rw [if_neg hk, if_pos ((below_isPrefixOf hcs h hne).2 ⟨c, rest, rfl⟩)]
  cases rest with
  | nil => simp [hc.ne_nil, hc.slash]
  | cons d rest => simp

/-- **The names in a directory** are those of the paths one name longer. -/
theorem childName?_eq_some (hc : PartsOK cs) (hd : PartsOK ds) {x : String} :
    childName? (ofParts cs) (ofParts ds) = some x ↔ ds = cs ++ [x] := by
  constructor
  · intro h
    have h' := h
    unfold childName? at h'
    split at h'
    · cases h'
    rename_i hk
    split at h'
    · rename_i hp
      by_cases hne : ds = []
      · -- only the root directory and a slash are as short as the root
        subst hne
        rw [ofParts_nil] at hp
        have hcs := below_root hc hp
        subst hcs; exact absurd rfl hk
      · obtain ⟨c, rest, rfl⟩ := (below_isPrefixOf hc hd hne).1 hp
        rw [childName?_append hd] at h
        split at h
        · rename_i hr; subst hr; rw [Option.some.inj h]
        · cases h
    · cases h'
  · rintro rfl
    rw [childName?_append hd, if_pos rfl]

/-! ## Keys: paths that are their own canonical path -/

variable {key d : String}

/-- Only the root has no parent. -/
theorem exists_parent? (hk : canonical key = key) (hne : key ≠ "/") : ∃ d, parent? key = some d := by
  obtain ⟨cs, hc, rfl⟩ := canonical_eq_self_iff.1 hk
  rcases List.eq_nil_or_concat cs with rfl | ⟨bs, c, rfl⟩
  · exact absurd ofParts_nil hne
  · rw [List.concat_eq_append] at hc ⊢
    exact ⟨_, parent?_concat hc⟩

theorem canonical_of_mem_ancestors (hk : canonical key = key) (hd : d ∈ ancestors key) :
    canonical d = d := by
  obtain ⟨cs, hc, rfl⟩ := canonical_eq_self_iff.1 hk
  obtain ⟨bs, hp, -, rfl⟩ := (mem_ancestors hc).1 hd
  exact canonical_ofParts (partsOK_of_isPrefix hc hp)

theorem root_mem_ancestors (hk : canonical key = key) (hne : key ≠ "/") : "/" ∈ ancestors key := by
  obtain ⟨cs, hc, rfl⟩ := canonical_eq_self_iff.1 hk
  refine (mem_ancestors hc).2 ⟨[], List.nil_prefix, ?_, ofParts_nil⟩
  rintro rfl; exact hne ofParts_nil

theorem parent?_mem_ancestors (hp : parent? key = some d) : d ∈ ancestors key := by
  rw [ancestors_of_parent? hp]; exact List.mem_cons_self

/-- **Below a directory** lie the keys that have it among their ancestors. -/
theorem below_iff_mem_ancestors (hd : canonical d = d) (hk : canonical key = key) (hne : d ≠ "/") :
    (below d).isPrefixOf key.toList = true ↔ d ∈ ancestors key := by
  obtain ⟨bs, hb, rfl⟩ := canonical_eq_self_iff.1 hd
  obtain ⟨cs, hc, rfl⟩ := canonical_eq_self_iff.1 hk
  by_cases hcs : cs = []
  · subst hcs
    rw [ofParts_nil, ancestors_root]
    constructor
    · intro h; rw [below_root hb h, ofParts_nil] at hne; exact absurd rfl hne
    · intro h; cases h
  rw [below_isPrefixOf hb hc hcs, mem_ancestors hc]
  constructor
  · rintro ⟨c, rest, rfl⟩
    exact ⟨bs, List.prefix_append _ _, by simp, rfl⟩
  · rintro ⟨as, ⟨rest, rfl⟩, hne, he⟩
    have := (ofParts_inj (partsOK_append.1 hc).1 hb).1 he
    subst this
    cases rest with
    | nil => exact absurd (List.append_nil _).symm hne
    | cons c rest => exact ⟨c, rest, rfl⟩

end TreeShell.Path
