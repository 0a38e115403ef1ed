import TreeShell.Session.Execute

/-!
# Running lines

* `Session.runSegments`: a pipeline, up to its end, a failure or the end of the session.
* `Session.processLine`: a line, its output printed or written to the target of its redirection.
  The target is located before the pipeline runs.
* `Session.step`: reads one line and processes it unless it is blank.
* `Session.run`: steps until the session ends or the terminal is closed; failures are reported.
-/

namespace TreeShell.Session

open Command (CommandLine Segment)
open Store (Backend)

variable {σ : Type} [Backend σ]

/-- Runs a chunk of a line. A chunk without a word is the command with the empty name. -/
def runSegment (s : Session σ) (segment : Option Segment) (piped : String) :
    Reply (Session σ) Outcome :=
  match segment with
  | none => s.execute "" [] piped
  | some g => s.execute g.name g.args piped

/-- Runs the rest of a pipeline after `last`; ends early when the session does. -/
def runSegments : Session σ → Outcome → List (Option Segment) → Reply (Session σ) Outcome
  | s, last, [] => (.ok last, s)
  | s, last, g :: gs =>
    andThen (s.runSegment g last.piped) fun outcome s =>
    match outcome with
    | .terminate => (.ok .terminate, s)
    | outcome => runSegments s outcome gs

/-- Prints what a line gives, or writes it to the target. -/
def deliver (s : Session σ) (target : Option String) (last : Outcome) :
    Reply (Session σ) LineStatus :=
  match target, last with
  | some path, .text output =>
    andThen (s.ask (Backend.write path output)) fun _ s =>
    (.ok .proceed, s.say ("Output written to " ++ path))
  | some path, _ => (.ok .proceed, s.say ("No output to write to " ++ path))
  | none, .text output => (.ok .proceed, if Text.allBlank output then s else s.say output)
  | none, _ => (.ok .proceed, s)

/-- Runs a line that has been read. -/
def runLine (s : Session σ) (line : CommandLine) : Reply (Session σ) LineStatus :=
  let target := line.redirect.map fun t => s.locate (some t)
  andThen (s.runSegments .noValue line.segments) fun last s =>
  match last with
  | .terminate => (.ok .stop, s)
  | last => s.deliver target last

/-- Reads a line and runs it. A malformed line is reported, and the session goes on. -/
def processLine (s : Session σ) (raw : String) : Reply (Session σ) LineStatus :=
  match CommandLine.parse raw with
  | .error f => (.ok .proceed, s.warn ("Error: " ++ f.message))
  | .ok line => s.runLine line

/-- Takes the next line from the terminal and runs it unless it is blank. -/
def step (s : Session σ) : Reply (Session σ) LineStatus :=
  let (line, terminal) := s.terminal.readLine s.promptText
  let s := { s with terminal }
  match line with
  | none => (.error .closed, s)
  | some line =>
    if Text.allBlank line then (.ok .proceed, s)
    else
      andThen (s.processLine line) fun status s =>
      match status with
      | .proceed => (.ok .proceed, { s with terminal := s.terminal.clearInput })
      | .stop => (.ok .stop, s)

/-- At most so many steps, up to the end of the session or of the input. -/
def steps : Nat → Session σ → Session σ
  | 0, s => s
  | n + 1, s =>
    match s.step with
    | (.ok .proceed, s) => steps n s
    | (.ok .stop, s) => s
    | (.error .closed, s) => s
    | (.error f, s) => steps n (s.warn ("Error in shell: " ++ f.message))

/-- Runs the session to its end. Every step takes a line, and one more finds the terminal closed. -/
def run (s : Session σ) : Session σ :=
  steps (s.terminal.input.length + 1) (s.say "Welcome to vos")

end TreeShell.Session
