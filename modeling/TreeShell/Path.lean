/-!
# Paths of the store

A path is read as the list of its parts and written back in one canonical form.

* `parts`: `\` counts as `/`, empty parts and `.` are dropped, `..` is a name like any other.
* `canonical`: the spelling under which the store keeps an entry.
* `parent?`: what stands before the last slash; `ancestors` follows it up to `/`.
-/

namespace TreeShell.Path

/-- A backslash read as a slash. -/
def slashed (c : Char) : Char :=
  if c = '\\' then '/' else c

/-- A part that names something: neither empty nor a single dot. -/
def isName (s : List Char) : Bool :=
  s ≠ [] && s ≠ ['.']

/-- The names of a path, in order. -/
def parts (p : String) : List String :=
  (((p.toList.map slashed).splitOn '/').filter isName).map String.ofList

/-- The absolute path with the given names. -/
def ofParts (cs : List String) : String :=
  "/" ++ "/".intercalate cs

/-- The one spelling of a path that the store uses. A relative path is anchored at `/`. -/
def canonical (p : String) : String :=
  ofParts (parts p)

/-- What stands before the last slash, and `/` if that is nothing. The root has no parent. -/
def parent? (p : String) : Option String :=
  if p = "/" then none
  else
    match (p.toList.reverse.dropWhile (· ≠ '/')).drop 1 with
    | [] => some "/"
    | s => some (String.ofList s.reverse)

/-- At most `n` parents of `p`, nearest first. -/
def ancestorsUpTo : Nat → String → List String
  | 0, _ => []
  | n + 1, p =>
    match parent? p with
    | none => []
    | some q => q :: ancestorsUpTo n q

/-- The parent of `p`, its parent, and so on; ends with `/`. -/
def ancestors (p : String) : List String :=
  ancestorsUpTo (p.length + 1) p

/-- What the keys below the directory `d` start with. -/
def below (d : String) : List Char :=
  if d = "/" then ['/'] else d.toList ++ ['/']

/-- The name of the entry `key` if it lies directly in the directory `d`. -/
def childName? (d key : String) : Option String :=
  if key = d then none
  else if (below d).isPrefixOf key.toList then
    let name := key.toList.drop (below d).length
    if name ≠ [] && !name.contains '/' then some (String.ofList name) else none
  else none

end TreeShell.Path
