import TreeShell.Yaml.Document

/-!
# Reading values of a known kind

What a node gives where a text, a number, a truth value, a choice or a record belongs. `none` if
something else stands there.

* A text may be any scalar, a number or truth value only a plain one.
* A choice may also be written as a tag of its own with nothing behind it.
* A record may be left out. Unknown keys are passed over, a key given twice is refused.
* Every reader has the root of the document at hand, for aliases.
-/

namespace TreeShell.Yaml

/-! ## Scalars -/

/-- The node behind an alias; every other node is itself. -/
def Node.target? (n root : Node) : Option Node :=
  match n with
  | .alias number => root.anchored? number
  | _ => some n

/-- The digits of a number in a given base. -/
def digitsValue? (base : Nat) (ds : List Char) : Option Nat :=
  if ds = [] then none
  else
    ds.foldlM (fun n c => do
      let d ← Text.hexValue? c
      if d < base then some (base * n + d) else none) 0

/-- A natural number: decimal without leading zeros, or after `0x`, `0o` or `0b`; a plus sign may
come first. -/
def naturalValue? (text : List Char) : Option Nat :=
  let unsigned := if text.head? = some '+' then text.drop 1 else text
  match unsigned with
  | '0' :: 'x' :: ds => digitsValue? 16 ds
  | '0' :: 'o' :: ds => digitsValue? 8 ds
  | '0' :: 'b' :: ds => digitsValue? 2 ds
  | '0' :: _ :: _ => none
  | ds => digitsValue? 10 ds

/-- A truth value. -/
def truthValue? (text : String) : Option Bool :=
  if ["true", "True", "TRUE"].contains text then some true
  else if ["false", "False", "FALSE"].contains text then some false
  else none

/-- Whether a scalar can be something else than a text: it is plain, or literal with the tag. -/
def isTyped (tag : String) (p : Properties) (style : Style) : Bool :=
  style = .plain || (style = .literal && p.tag = some tag)

/-- Any scalar, as the text it is. -/
def Node.text? (n root : Node) : Option String := do
  match ← n.target? root with
  | .scalar _ _ text => some text
  | _ => none

/-- A natural number within a limit. -/
def Node.natural? (limit : Nat) (n root : Node) : Option Nat := do
  match ← n.target? root with
  | .scalar p style text =>
    if isTyped "tag:yaml.org,2002:int" p style then
      (naturalValue? text.toList).filter (· ≤ limit)
    else none
  | _ => none

/-- A truth value. -/
def Node.truth? (n root : Node) : Option Bool := do
  match ← n.target? root with
  | .scalar p style text =>
    if isTyped "tag:yaml.org,2002:bool" p style then truthValue? text else none
  | _ => none

/-- The text with the given bytes, each of which is kept as the character of its number. -/
def textOfBytes? (bytes : List Char) : Option String :=
  String.fromUTF8? ⟨(bytes.map fun c => c.toNat.toUInt8).toArray⟩

/-- The name in a tag that is no tag of a schema. A name whose bytes spell nothing is none. -/
def localTag? (tag : Option String) : Option String := do
  match (← tag).toList with
  | ['!'] => some "!"
  | '!' :: name => textOfBytes? name
  | _ => none

/-- Whether a plain scalar stands for nothing. -/
def isNothing (text : String) : Bool :=
  ["", "~", "null", "Null", "NULL"].contains text

/-- The name of a choice: a scalar, or a tag of its own with nothing behind it. -/
def Node.choice? (n root : Node) : Option String := do
  match ← n.target? root with
  | .scalar p style text =>
    match localTag? p.tag with
    | none => some text
    | some name => if style = .plain && isNothing text then some name else none
  | _ => none

/-- The entries of a map. One that is left out has none. -/
def Node.entries? (n root : Node) : Option (List (Node × Node)) := do
  match ← n.target? root with
  | .mapping _ entries => some entries
  | .scalar _ .plain "" => some []
  | _ => none

/-! ## Records -/

/-- A field of a record, as it is read into a draft of the record. -/
structure Field (α : Type) where
  key : String
  /-- Whether the draft has it already. -/
  given : α → Bool
  /-- The draft with the field read from a node, given the root. -/
  read : Node → Node → α → Option α

/-- A field that is an optional part of the draft. -/
def Field.part {α β : Type} (key : String) (get : α → Option β) (put : β → α → α)
    (one : Node → Node → Option β) : Field α where
  key := key
  given := fun draft => (get draft).isSome
  read := fun n root draft => (one n root).map fun x => put x draft

/-- The draft with an entry of a map read into it. -/
def addEntry {α : Type} (fields : List (Field α)) (root : Node) (draft : α)
    (entry : Node × Node) : Option α := do
  let key ← entry.1.text? root
  match fields.find? (·.key = key) with
  | none => some draft
  | some field => if field.given draft then none else field.read entry.2 root draft

/-- A record, all of whose fields may be missing. -/
def Node.record? {α : Type} (fields : List (Field α)) (blank : α) (n root : Node) : Option α := do
  (← n.entries? root).foldlM (addEntry fields root) blank

end TreeShell.Yaml
