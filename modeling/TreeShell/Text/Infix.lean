/-!
# Texts inside texts

* `hasInfix`: whether one text stands somewhere inside another.
* `replaceAll`: every occurrence exchanged, from the left, none overlapping an earlier one.
-/

namespace TreeShell.Text

/-- Whether `p` stands somewhere in the second list. -/
def hasInfixChars (p : List Char) : List Char → Bool
  | [] => p.isEmpty
  | c :: s => p.isPrefixOf (c :: s) || hasInfixChars p s

/-- Whether the text `p` stands somewhere in `s`; the empty text stands in every text. -/
def hasInfix (p s : String) : Bool :=
  hasInfixChars p.toList s.toList

/-- Exchanges each occurrence of `p` for `q`; `k` characters are still covered by the occurrence
just exchanged. -/
def replaceCovered (p q : List Char) : Nat → List Char → List Char
  | _, [] => []
  | k + 1, _ :: s => replaceCovered p q k s
  | 0, c :: s =>
    if p.isPrefixOf (c :: s) then q ++ replaceCovered p q (p.length - 1) s
    else c :: replaceCovered p q 0 s

/-- Exchanges every occurrence of the non-empty text `p` in `s` for `q`. -/
def replaceAll (p q s : String) : String :=
  String.ofList (replaceCovered p.toList q.toList 0 s.toList)

end TreeShell.Text
