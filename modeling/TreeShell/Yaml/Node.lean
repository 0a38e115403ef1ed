import TreeShell.Yaml.Token

/-!
# Nodes of YAML

* `Node`: a value with its tag and the number of its anchor. An alias names a number.
* `Node.anchored?`: the node with a number. The number of an anchor is how many names had been used
  before, so a name used again can share its number with a later one; the last node counts.
-/

namespace TreeShell.Yaml

/-- What can stand before a value. -/
structure Properties where
  tag : Option String
  /-- The number of the anchor. -/
  anchor : Option Nat
deriving DecidableEq, Repr

/-- Nothing stands before the value. -/
def Properties.none : Properties :=
  ⟨Option.none, Option.none⟩

/-- A value as it is written. -/
inductive Node
  | scalar (properties : Properties) (style : Style) (text : String)
  | sequence (properties : Properties) (items : List Node)
  | mapping (properties : Properties) (entries : List (Node × Node))
  | alias (anchor : Nat)

/-- What stands where a value is left out. -/
def Node.blank : Node :=
  .scalar .none .plain ""

mutual

/-- The last node with that number, in the order in which nodes begin. -/
def Node.anchored? (number : Nat) : Node → Option Node
  | .scalar p style text => if p.anchor = some number then some (.scalar p style text) else none
  | .sequence p items =>
    (Node.anchoredItem? number items).or
      (if p.anchor = some number then some (.sequence p items) else none)
  | .mapping p entries =>
    (Node.anchoredEntry? number entries).or
      (if p.anchor = some number then some (.mapping p entries) else none)
  | .alias _ => none

/-- The last node with that number in one of the items. -/
def Node.anchoredItem? (number : Nat) : List Node → Option Node
  | [] => none
  | n :: ns => (Node.anchoredItem? number ns).or (n.anchored? number)

/-- The last node with that number in one of the entries. -/
def Node.anchoredEntry? (number : Nat) : List (Node × Node) → Option Node
  | [] => none
  | (k, v) :: es =>
    (Node.anchoredEntry? number es).or ((v.anchored? number).or (k.anchored? number))

end

end TreeShell.Yaml
