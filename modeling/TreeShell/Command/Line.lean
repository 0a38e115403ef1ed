import TreeShell.Text.Blank

/-!
# Command lines

A line is a pipeline of segments between `|` and at most one redirection after the first `>`.

* `CommandLine.parse` reads a line, `CommandLine.render` writes one.
* A chunk between two `|` without a word in it is kept as `none`.
* The only malformed line is one with nothing but blanks after its first `>`.
-/

namespace TreeShell.Command

/-- One command with its arguments. -/
structure Segment where
  name : String
  args : List String
deriving DecidableEq, Repr

/-- What can be wrong with a line. -/
inductive LineFault
  | noTarget
deriving DecidableEq, Repr

/-- The wording of a fault. -/
def LineFault.message : LineFault → String
  | .noTarget => "No output file specified after '>'."

/-- The words of a chunk as a command; `none` if it has no word. -/
def Segment.ofChars? (chunk : List Char) : Option Segment :=
  match (Text.wordsOf chunk).map String.ofList with
  | [] => none
  | name :: args => some { name, args }

/-- The words of a chunk as a command; `none` if it has no word. -/
def Segment.ofChunk? (chunk : String) : Option Segment :=
  Segment.ofChars? chunk.toList

/-- The words of a segment, one space between them. -/
def Segment.render (s : Segment) : String :=
  " ".intercalate (s.name :: s.args)

/-- A pipeline and where its output goes. -/
structure CommandLine where
  /-- The target as typed, not yet an absolute path. -/
  redirect : Option String
  /-- The chunks between bars; `none` for one without a word. -/
  segments : List (Option Segment)
deriving DecidableEq, Repr

namespace CommandLine

/-- The chunks of a pipeline. -/
def segmentsOf (s : List Char) : List (Option Segment) :=
  (s.splitOn '|').map Segment.ofChars?

/-- Reads a line. Only the first `>` redirects; all that follows it is the target. -/
def parse (line : String) : Except LineFault CommandLine :=
  match line.toList.dropWhile (· ≠ '>') with
  | [] => .ok { redirect := none, segments := segmentsOf line.toList }
  | _ :: rest =>
    match Text.trimChars rest with
    | [] => .error .noTarget
    | target =>
      .ok { redirect := some (String.ofList target),
            segments := segmentsOf (line.toList.takeWhile (· ≠ '>')) }

/-- Writes a line: ` | ` between segments, nothing for an empty one, ` > ` before the target. -/
def render (l : CommandLine) : String :=
  let pipeline := " | ".intercalate (l.segments.map fun s => (s.map Segment.render).getD "")
  match l.redirect with
  | none => pipeline
  | some target => pipeline ++ " > " ++ target

end CommandLine

end TreeShell.Command
