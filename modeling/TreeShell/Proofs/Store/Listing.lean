import TreeShell.Proofs.Path.Ancestors
import TreeShell.Store.Tree

/-!
# Listing a directory

The tree finds the names in a directory by going through all of its keys.

* `mem_names`: which names it finds.
* `names_sorted`: it finds them in code point order, and each of them once.
* `eq_mergeSort`: so the list is what sorting the same names gives.
-/

namespace TreeShell.Store

open TreeShell.Path

variable {t : Tree} {cs : List String} {x y : String}

/-- The names that the keys of a tree have in the directory `q`. -/
def Tree.names (t : Tree) (q : String) : List String := t.keys.filterMap (childName? q)

/-- **The names in a directory** are the last names of the entries one name below it. -/
theorem mem_names (hk : ∀ key, (t.get? key).isSome → canonical key = key) (hc : PartsOK cs) :
    x ∈ t.names (ofParts cs) ↔ NameOK x ∧ (t.get? (ofParts (cs ++ [x]))).isSome := by
  unfold Tree.names
  rw [List.mem_filterMap]
  constructor
  · rintro ⟨key, hm, hx⟩
    have hs := Tree.mem_keys.1 hm
    obtain ⟨ds, hd, rfl⟩ := canonical_eq_self_iff.1 (hk key hs)
    have he := (childName?_eq_some hc hd).1 hx
    subst he
    exact ⟨(partsOK_append.1 hd).2 x List.mem_cons_self, hs⟩
  · rintro ⟨hx, hs⟩
    exact ⟨_, Tree.mem_keys.2 hs, (childName?_eq_some hc (partsOK_concat hc hx)).2 rfl⟩

theorem keys_sorted (t : Tree) : t.keys.Pairwise (· < ·) := by
  refine t.map.ordered_keys.imp fun {a b} h => ?_
  exact compareOfLessAndEq_eq_lt.1 h

/-- Paths in one directory are ordered as their last names are. -/
theorem name_lt_of_ofParts_lt (h : ofParts (cs ++ [x]) < ofParts (cs ++ [y])) : x < y := by
  have hs : ∀ z, (ofParts (cs ++ [z])).toList = (stem cs ++ ['/']) ++ z.toList := by
    intro z; rw [toList_ofParts (by simp)]; simp
  have hlt : ∀ {z w : String}, z < w → ofParts (cs ++ [z]) < ofParts (cs ++ [w]) := by
    intro z w hzw
    rw [String.lt_iff, hs, hs]
    exact List.append_left_lt hzw
  by_cases hxy : x = y
  · subst hxy; exact absurd h (String.lt_irrefl _)
  rcases String.le_total x y with hle | hle
  · exact String.not_le.1 fun hge => hxy (String.le_antisymm hle hge)
  · have hyx : y < x := String.not_le.1 fun hge => hxy (String.le_antisymm hge hle)
    exact absurd (hlt hyx) (String.lt_asymm h)

/-- **Names are listed in code point order**, and each of them once. -/
theorem names_sorted (hk : ∀ key, (t.get? key).isSome → canonical key = key) (hc : PartsOK cs) :
    (t.names (ofParts cs)).Pairwise (· < ·) := by
  unfold Tree.names
  rw [List.pairwise_filterMap]
  refine (keys_sorted t).imp_of_mem fun {a b} ha hb hab => ?_
  obtain ⟨as, has, rfl⟩ := canonical_eq_self_iff.1 (hk a (Tree.mem_keys.1 ha))
  obtain ⟨bs, hbs, rfl⟩ := canonical_eq_self_iff.1 (hk b (Tree.mem_keys.1 hb))
  -- both keys lie in the directory, so the order is that of their last names
  intro x hx y hy
  rw [(childName?_eq_some hc has).1 hx, (childName?_eq_some hc hbs).1 hy] at hab
  exact name_lt_of_ofParts_lt hab

/-- A list in order without repetitions is what sorting its members gives. -/
theorem eq_mergeSort {l l' : List String} (hl : l.Pairwise (· < ·)) (hn : l'.Nodup)
    (hm : ∀ x, x ∈ l ↔ x ∈ l') : l = l'.mergeSort := by
  have hle : l.Pairwise (· ≤ ·) := hl.imp fun h => String.not_lt.1 (String.lt_asymm h)
  have hnl : l.Nodup := hl.imp fun h => String.ne_of_lt h
  have hs : l'.mergeSort.Pairwise (· ≤ ·) := by
    refine (@List.pairwise_mergeSort String (fun a b => decide (a ≤ b)) ?_ ?_ l').imp ?_
    · intro a b c hab hbc
      exact decide_eq_true (String.le_trans (of_decide_eq_true hab) (of_decide_eq_true hbc))
    · intro a b; simpa using String.le_total a b
    · intro a b h; exact of_decide_eq_true h
  have hp : l.Perm l' := (List.perm_ext_iff_of_nodup hnl hn).2 fun x => hm x
  refine List.Perm.eq_of_pairwise (fun a b _ _ => String.le_antisymm) hle hs ?_
  exact hp.trans (List.mergeSort_perm l' _).symm

end TreeShell.Store
