import TreeShell.Yaml.Lexer
import TreeShell.Yaml.Node

/-!
# Documents of YAML

The nodes of a text, from its tokens.

* `node`: one value with all that lies in it. Values that are left out count as empty ones.
* `document?`: the one document of a text.

Every call takes a token or goes to one of at most four others that do, which bounds the fuel.
-/

namespace TreeShell.Yaml

/-! ## Tokens that wait -/

/-- Tokens that wait, and the names that are in use. -/
structure Feed where
  tokens : List Token
  /-- The numbers of anchors by name. -/
  anchors : List (String × Nat)
  /-- What the handles of tags stand for. -/
  handles : List (String × String)

/-- A part of a document, read from tokens. -/
abbrev Parse (α : Type) : Type :=
  StateT Feed Option α

/-- The token that comes next. -/
def peek : Parse (Option Token) := do
  return (← get).tokens.head?

/-- Passes the token that comes next. -/
def advance : Parse Unit :=
  modify fun f => { f with tokens := f.tokens.drop 1 }

/-- Whether one of the tokens comes next. -/
def isNext (ts : List Token) : Parse Bool := do
  return (← peek).any ts.contains

/-- Passes the token if it comes next. -/
def accept (t : Token) : Parse Bool := do
  if ← isNext [t] then
    advance
    return true
  else return false

/-- Gives an anchor its number. -/
def number (name : String) : Parse Nat := do
  let f ← get
  let n := f.anchors.length
  set { f with anchors := (name, n) :: f.anchors.filter (·.1 ≠ name) }
  return n

/-- The anchor that comes next, if one does. -/
def anchorName? : Parse (Option String) := do
  match ← peek with
  | some (.anchor name) =>
    advance
    return some name
  | _ => return none

/-- The tag that comes next, if one does, with its handle replaced. -/
def tagText? : Parse (Option String) := do
  match ← peek with
  | some (.tag handle suffix) =>
    advance
    if handle = "" then return some suffix
    else
      match (← get).handles.lookup handle with
      | some stem => return some (stem ++ suffix)
      | none => failure
  | _ => return none

/-- What stands before a value: an anchor and a tag in either order. -/
def properties : Parse (Option String × Option String) := do
  match ← anchorName? with
  | some name => return (some name, ← tagText?)
  | none =>
    let tag ← tagText?
    if tag.isSome then return (← anchorName?, tag) else return (none, none)

/-- The tag of a scalar. A lone exclamation mark is none. -/
def scalarTag (tag : Option String) : Option String :=
  if tag = some "!" then none else tag

/-! ## Nodes -/

/-- The properties of a node that begins here. -/
def numbered (name tag : Option String) : Parse Properties := do
  return { tag, anchor := ← name.mapM number }

/-- A value that is left out behind an anchor or a tag. -/
def leftOut (name tag : Option String) : Parse Node := do
  if name.isNone && tag.isNone then failure
  else return .scalar (← numbered name tag) .plain ""

mutual

/-- A value. Blocks count only if `block` says so, and hyphens at the column of the map around them
only if `indentless` does. -/
def node (block indentless : Bool) : Nat → Parse Node
  | 0 => failure
  | fuel + 1 => do
    match ← peek with
    | some (.alias name) =>
      advance
      match (← get).anchors.lookup name with
      | some n => return .alias n
      | none => failure
    | _ =>
      let (name, tag) ← properties
      match ← peek with
      | some .blockEntry =>
        if indentless then return .sequence (← numbered name tag) (← indentlessItems fuel)
        else leftOut name tag
      | some (.scalar style text) =>
        advance
        return .scalar (← numbered name (scalarTag tag)) style text
      | some .flowSequence =>
        advance
        return .sequence (← numbered name tag) (← flowItems true fuel)
      | some .flowMapping =>
        advance
        return .mapping (← numbered name tag) (← flowEntries true fuel)
      | t =>
        if block && t = some .blockSequence then
          advance
          return .sequence (← numbered name tag) (← blockItems fuel)
        else if block && t = some .blockMapping then
          advance
          return .mapping (← numbered name tag) (← blockEntries fuel)
        else leftOut name tag

/-- A value that is left out before certain tokens. -/
def nodeBefore (ends : List Token) (block indentless : Bool) : Nat → Parse Node
  | 0 => failure
  | fuel + 1 => do
    if ← isNext ends then return .blank else node block indentless fuel

/-- The items of a block, up to its end. -/
def blockItems : Nat → Parse (List Node)
  | 0 => failure
  | fuel + 1 => do
    if ← accept .blockEntry then
      let item ← nodeBefore [.blockEntry, .blockEnd] true false fuel
      return item :: (← blockItems fuel)
    else if ← accept .blockEnd then return []
    else failure

/-- The items that stand at the column of the map around them. -/
def indentlessItems : Nat → Parse (List Node)
  | 0 => failure
  | fuel + 1 => do
    if ← accept .blockEntry then
      let item ← nodeBefore [.blockEntry, .key, .value, .blockEnd] true false fuel
      return item :: (← indentlessItems fuel)
    else return []

/-- The entries of a block, up to its end. -/
def blockEntries : Nat → Parse (List (Node × Node))
  | 0 => failure
  | fuel + 1 => do
    if ← accept .key then
      let key ← nodeBefore [.key, .value, .blockEnd] true true fuel
      let value ← blockValue fuel
      return (key, value) :: (← blockEntries fuel)
    else if ← accept .blockEnd then return []
    else failure

/-- The value of an entry in a block. -/
def blockValue : Nat → Parse Node
  | 0 => failure
  | fuel + 1 => do
    if ← accept .value then nodeBefore [.key, .value, .blockEnd] true true fuel
    else return .blank

/-- The items between brackets, up to the closing one. -/
def flowItems (first : Bool) : Nat → Parse (List Node)
  | 0 => failure
  | fuel + 1 => do
    if ← accept .flowSequenceEnd then return []
    else if first then flowItemsFrom fuel
    else if ← accept .flowEntry then
      if ← accept .flowSequenceEnd then return [] else flowItemsFrom fuel
    else failure

/-- An item between brackets, and those that follow. An item with a key is a map of one entry. -/
def flowItemsFrom : Nat → Parse (List Node)
  | 0 => failure
  | fuel + 1 => do
    let item ← if ← accept .key then flowPair fuel else node false false fuel
    return item :: (← flowItems false fuel)

/-- A map of one entry, after its key sign. A key that is left out takes the sign behind it along. -/
def flowPair : Nat → Parse Node
  | 0 => failure
  | fuel + 1 => do
    let ends : List Token := [.flowEntry, .flowSequenceEnd]
    let key ←
      if ← isNext (.value :: ends) then
        advance
        pure Node.blank
      else node false false fuel
    let value ← if ← accept .value then nodeBefore ends false false fuel else pure Node.blank
    return .mapping .none [(key, value)]

/-- The entries between braces, up to the closing one. -/
def flowEntries (first : Bool) : Nat → Parse (List (Node × Node))
  | 0 => failure
  | fuel + 1 => do
    if ← accept .flowMappingEnd then return []
    else if first then flowEntriesFrom fuel
    else if ← accept .flowEntry then
      if ← accept .flowMappingEnd then return [] else flowEntriesFrom fuel
    else failure

/-- An entry between braces, and those that follow. -/
def flowEntriesFrom : Nat → Parse (List (Node × Node))
  | 0 => failure
  | fuel + 1 => do
    let ends : List Token := [.flowEntry, .flowMappingEnd]
    let entry ←
      if ← accept .key then
        let key ← nodeBefore (.value :: ends) false false fuel
        let value ← if ← accept .value then nodeBefore ends false false fuel else pure Node.blank
        pure (key, value)
      else pure (← node false false fuel, Node.blank)
    return entry :: (← flowEntries false fuel)

end

/-! ## Documents -/

/-- What the handles of tags stand for if nothing else is said. -/
def defaultHandles : List (String × String) :=
  [("!", "!"), ("!!", "tag:yaml.org,2002:")]

/-- The directives of a document; whether there is a version among them. -/
def directives : Nat → Bool → Parse Unit
  | 0, _ => failure
  | fuel + 1, versioned => do
    match ← peek with
    | some (.versionDirective major minor) =>
      if versioned || major ≠ 1 || !(minor = 1 || minor = 2) then failure
      else
        advance
        directives fuel true
    | some (.tagDirective handle stem) =>
      let f ← get
      if (f.handles.lookup handle).isSome then failure
      else
        set { f with handles := (handle, stem) :: f.handles }
        advance
        directives fuel versioned
    | _ => modify fun f => { f with handles := f.handles ++ defaultHandles }

/-- Whether the next token is a directive. -/
def atDirective : Parse Bool := do
  match ← peek with
  | some (.versionDirective _ _) => return true
  | some (.tagDirective _ _) => return true
  | _ => return false

/-- The root of a document. Only a document that says where it begins may be empty. -/
def root (fuel : Nat) : Parse Node := do
  let announced := (← atDirective) || (← isNext [.documentStart])
  directives fuel false
  if !announced then node true false fuel
  else if !(← accept .documentStart) then failure
  else if (← atDirective) || (← isNext [.documentStart, .documentEnd]) || (← peek).isNone then
    return .blank
  else node true false fuel

/-- The only document of a text; `none` inside if there is none. A text with several is refused, and
so is one that is not well formed. -/
def document? (text : String) : Option (Option Node) := do
  let tokens ← tokens? text
  if tokens = [] then some none
  else
    let (node, feed) ← (root (4 * tokens.length + 4)).run ⟨tokens, [], []⟩
    if (feed.tokens.dropWhile (· = .documentEnd)) = [] then some (some node) else none

end TreeShell.Yaml
