import TreeShell.Proofs.Session.Pipeline

/-!
# Branches that are never taken

The built-in commands come in three families, and each family goes by names of its own. A name is
taken to one family after the other. On the way there are branches for what cannot happen: a name
that the family of the file commands takes without having a command for it, and a pipeline that
gives nothing at all.

* `textCommand?`, `fileCommand?`, `shellCommand?`, `dispatch?`: the families by name.
  `dispatch?_builtin`, `dispatch?_other`: **together they take the names of the built-in commands.**
* `Dead`: what could stand in the branches that are not taken; `executeOr`, `processLineOr`: a command
  and a line with that in its place.
* `executeOr_eq`, `processLineOr_eq`: **whatever stands there, the session does the same.**
* `execute_terminate_iff`, `processLine_fault`, `step_fault`: what ends a session, and what fails.
-/

namespace TreeShell.Session

open Command (Builtin CommandLine Segment unknownCommand)
open Store (Backend Tree)

variable {σ : Type} [Backend σ]

/-! ## The families -/

/-- The commands on texts, by name. -/
def textCommand? (s : Session σ) (name : String) (args : List String) (piped : String) :
    Option (Reply (Session σ) Outcome) :=
  match name with
  | "echo" => some (s.runBuiltin .echo args piped)
  | "grep" => some (s.runBuiltin .grep args piped)
  | "cat" => some (s.runBuiltin .cat args piped)
  | _ => none

/-- The names that the family of the file commands takes. -/
def fileNames : List String := ["ls", "cd", "pwd", "mkdir", "rmdir", "rm", "touch", "cp", "mv"]

/-- The commands on files and directories, by name, and `dead` for a name of no such command. -/
def fileCommand (dead : Session σ → Reply (Session σ) Outcome) (s : Session σ) (name : String)
    (args : List String) : Reply (Session σ) Outcome :=
  match name with
  | "pwd" => s.runBuiltin .pwd args ""
  | "cd" => s.runBuiltin .cd args ""
  | "ls" => s.runBuiltin .ls args ""
  | "mkdir" => s.runBuiltin .mkdir args ""
  | "rmdir" => s.runBuiltin .rmdir args ""
  | "rm" => s.runBuiltin .rm args ""
  | "touch" => s.runBuiltin .touch args ""
  | "cp" => s.runBuiltin .cp args ""
  | "mv" => s.runBuiltin .mv args ""
  | _ => dead s

/-- The file commands, for the names that their family takes. -/
def fileCommand? (dead : Session σ → Reply (Session σ) Outcome) (s : Session σ) (name : String)
    (args : List String) : Option (Reply (Session σ) Outcome) :=
  if name ∈ fileNames then some (s.fileCommand dead name args) else none

/-- The commands on the session itself, by name. -/
def shellCommand? (s : Session σ) (name : String) (args : List String) :
    Option (Reply (Session σ) Outcome) :=
  match name with
  | "help" => some (s.runBuiltin .help args "")
  | "exit" => some (s.runBuiltin .exit args "")
  | "clear" => some (s.runBuiltin .clear args "")
  | _ => none

/-- What the first family that takes a name does with it. -/
def dispatch? (dead : Session σ → Reply (Session σ) Outcome) (s : Session σ) (name : String)
    (args : List String) (piped : String) : Option (Reply (Session σ) Outcome) :=
  (s.textCommand? name args piped).or ((s.fileCommand? dead name args).or (s.shellCommand? name args))

/-- What could stand in the branches that are never taken. -/
structure Dead (σ : Type) where
  /-- A name that the family of the file commands takes, but has no command for. -/
  noCommand : Session σ → Reply (Session σ) Outcome
  /-- A pipeline that gives nothing at all, which is to go to a target. -/
  noOutput : String → Session σ → Reply (Session σ) LineStatus
  /-- A pipeline that gives nothing at all. -/
  nothing : Session σ → Reply (Session σ) LineStatus

/-- Runs the command of that name, which the families are asked for. -/
def executeOr (dead : Dead σ) (s : Session σ) (name : String) (args : List String)
    (piped : String) : Reply (Session σ) Outcome :=
  if s.isEnabled name then
    (s.dispatch? dead.noCommand name args piped).getD (s.output (unknownCommand name))
  else s.output (unknownCommand name)

/-- Reads a line and runs it. -/
def processLineOr (dead : Dead σ) (s : Session σ) (raw : String) : Reply (Session σ) LineStatus :=
  match CommandLine.parse raw with
  | .error f => (.ok .proceed, s.warn ("Error: " ++ f.message))
  | .ok line =>
    let target := line.redirect.map fun t => s.locate (some t)
    andThen (s.runSegments .noValue line.segments) fun last s =>
    match target, last with
    | _, .terminate => (.ok .stop, s)
    | target, .text output => s.deliver target (.text output)
    | some path, .noValue => dead.noOutput path s
    | none, .noValue => dead.nothing s

variable {s : Session σ} {name : String} {dead : Session σ → Reply (Session σ) Outcome}

/-- **The families take the name of every built-in command**, and do what it does. -/
theorem dispatch?_builtin (b : Builtin) (args : List String) (piped : String) :
    s.dispatch? dead b.name args piped = some (s.runBuiltin b args piped) := by
  cases b <;> rfl

/-- **The families take no other name.** -/
theorem dispatch?_other (h : ∀ b : Builtin, b.name ≠ name) (args : List String) (piped : String) :
    s.dispatch? dead name args piped = none := by
  have htext : s.textCommand? name args piped = none := by
    unfold textCommand?
    split
    · exact absurd rfl (h .echo)
    · exact absurd rfl (h .grep)
    · exact absurd rfl (h .cat)
    · rfl
  have hfile : s.fileCommand? dead name args = none := by
    have hnames : ∀ n ∈ fileNames, (Builtin.ofName? n).isSome = true := by decide
    refine if_neg fun hmem => ?_
    obtain ⟨b, hb⟩ := Option.isSome_iff_exists.1 (hnames name hmem)
    exact h b (name_of_ofName? hb)
  have hshell : s.shellCommand? name args = none := by
    unfold shellCommand?
    split
    · exact absurd rfl (h .help)
    · exact absurd rfl (h .exit)
    · exact absurd rfl (h .clear)
    · rfl
  unfold dispatch?
  rw [htext, hfile, hshell]
  rfl

/-! ## Commands -/

/-- **Whatever stands in the branch for a name without a command**, a command does the same. -/
theorem executeOr_eq (dead : Dead σ) (s : Session σ) (name : String) (args : List String)
    (piped : String) : s.executeOr dead name args piped = s.execute name args piped := by
  unfold executeOr
  by_cases hb : ∃ b : Builtin, b.name = name
  · obtain ⟨b, rfl⟩ := hb
    by_cases hname : b.name ∈ s.commands
    · have henabled : s.isEnabled b.name = true := isEnabled_iff.2 hname
      rw [execute_builtin b hname, if_pos henabled, dispatch?_builtin, Option.getD_some]
    · have henabled : ¬ s.isEnabled b.name = true := fun h => hname (isEnabled_iff.1 h)
      rw [execute_unknown fun h => hname h.1, if_neg henabled]
      rfl
  · have hother : ∀ b : Builtin, b.name ≠ name := fun b h => hb ⟨b, h⟩
    rw [execute_unknown fun h => hb h.2, dispatch?_other hother, Option.getD_none, ite_self]
    rfl

/-- **A command ends the session** exactly if it is an enabled `exit`. -/
theorem execute_terminate_iff {args : List String} {piped : String} :
    (s.execute name args piped).1 = .ok .terminate ↔ name = "exit" ∧ s.isEnabled "exit" = true := by
  constructor
  · intro h
    obtain ⟨b, rfl, hname, hrun⟩ | hrun := execute_cases s name args piped
    · rw [hrun] at h
      by_cases hexit : b = .exit
      · subst hexit
        exact ⟨rfl, isEnabled_iff.2 hname⟩
      · obtain ⟨text, htext⟩ := runBuiltin_texts hexit s args piped _ h
        cases htext
    · rw [hrun] at h
      obtain ⟨text, htext⟩ := output_texts s _ _ h
      cases htext
  · rintro ⟨rfl, henabled⟩
    have hrun : s.execute "exit" args piped = s.runBuiltin .exit args piped :=
      execute_builtin .exit (isEnabled_iff.1 henabled) args piped
    rw [hrun]
    rfl

/-- A command never gives nothing at all. -/
theorem execute_ne_noValue {args : List String} {piped : String} :
    (s.execute name args piped).1 ≠ .ok .noValue := by
  intro h
  rcases execute_gives h with ⟨text, htext⟩ | ⟨hend, -⟩
  · cases htext
  · cases hend

/-! ## Lines -/

/-- A line has a segment, also an empty one. -/
theorem segments_ne_nil {raw : String} {line : CommandLine} (h : CommandLine.parse raw = .ok line) :
    line.segments ≠ [] := by
  unfold CommandLine.parse at h
  split at h
  · obtain rfl := Except.ok.inj h
    exact Command.segmentsOf_ne_nil _
  · split at h
    · cases h
    · obtain rfl := Except.ok.inj h
      exact Command.segmentsOf_ne_nil _

/-- The pipeline of a line never gives nothing at all: it has a segment, and each of its segments
gives something. -/
theorem pipeline_ne_noValue {raw : String} {line : CommandLine}
    (h : CommandLine.parse raw = .ok line) :
    (s.runSegments .noValue line.segments).1 ≠ .ok .noValue := by
  intro hnothing
  rcases runSegments_gives hnothing with ⟨hnil, -⟩ | ⟨text, htext⟩ | ⟨hend, -⟩
  · exact segments_ne_nil h hnil
  · cases htext
  · cases hend

/-- **Whatever stands in the branches for a pipeline that gives nothing**, a line does the same. -/
theorem processLineOr_eq (dead : Dead σ) (s : Session σ) (raw : String) :
    s.processLineOr dead raw = s.processLine raw := by
  unfold processLineOr processLine
  cases hparse : CommandLine.parse raw with
  | error f => rfl
  | ok line =>
    have hgives := pipeline_ne_noValue (s := s) hparse
    simp only
    unfold runLine
    generalize s.runSegments .noValue line.segments = r at hgives ⊢
    obtain ⟨answer, s'⟩ := r
    cases answer with
    | error f => rfl
    | ok last =>
      cases last with
      | text output => cases line.redirect <;> rfl
      | terminate => cases line.redirect <;> rfl
      | noValue => exact absurd rfl hgives

/-- A line fails only with the store. -/
theorem processLine_fault {raw : String} {f : Failure} (h : (s.processLine raw).1 = .error f) :
    ∃ g, f = .store g :=
  (processLine_led s raw).fault f h

/-- **A step fails only with the store**, or because the terminal is closed: exactly if no line is
waiting. -/
theorem step_fault {f : Failure} (h : s.step.1 = .error f) :
    (s.terminal.input = [] ∧ f = .closed) ∨ s.terminal.input ≠ [] ∧ ∃ g, f = .store g := by
  cases hinput : s.terminal.input with
  | nil =>
    rw [step_closed hinput] at h
    exact .inl ⟨rfl, (Except.error.inj h).symm⟩
  | cons raw rest =>
    refine .inr ⟨List.cons_ne_nil raw rest, ?_⟩
    rw [step_taken hinput] at h
    split at h
    · cases h
    · have hline := processLine_led (Act.take.done s) raw
      generalize (Act.take.done s).processLine raw = r at h hline
      obtain ⟨answer, s'⟩ := r
      cases answer with
      | error g =>
        obtain rfl := Except.error.inj h
        exact hline.fault g rfl
      | ok status => cases status <;> cases h

/-- **The dead branches stay dead**, in every state of a session and whatever it is given.

A line has at least one segment, and its pipeline does not give nothing at all. Nor does a command;
it ends the session exactly if it is an enabled `exit`. What stands in the branch for a file command
that there is not, makes no difference to a command; what stands in those for a pipeline that gives
nothing, with a target and without, makes none to a line. A line fails only with the store, and so
does a step, unless no line is waiting. -/
theorem branches_dead (s : Session σ) :
    (∀ raw line, CommandLine.parse raw = .ok line →
      line.segments ≠ [] ∧ (s.runSegments .noValue line.segments).1 ≠ .ok .noValue) ∧
    (∀ name args piped,
      (s.execute name args piped).1 ≠ .ok .noValue ∧
      ((s.execute name args piped).1 = .ok .terminate ↔ name = "exit" ∧ s.isEnabled "exit" = true) ∧
      ∀ dead, s.executeOr dead name args piped = s.execute name args piped) ∧
    (∀ raw,
      (∀ dead, s.processLineOr dead raw = s.processLine raw) ∧
      ∀ f, (s.processLine raw).1 = .error f → ∃ g, f = .store g) ∧
    ∀ f, s.step.1 = .error f →
      (s.terminal.input = [] ∧ f = .closed) ∨ s.terminal.input ≠ [] ∧ ∃ g, f = .store g := by
  refine ⟨fun raw line hparse => ?_, fun name args piped => ?_, fun raw => ?_, fun f => step_fault⟩
  · exact ⟨segments_ne_nil hparse, pipeline_ne_noValue hparse⟩
  · exact ⟨execute_ne_noValue, execute_terminate_iff, fun dead => executeOr_eq dead s name args piped⟩
  · exact ⟨fun dead => processLineOr_eq dead s raw, fun f => processLine_fault⟩

/-- Branches that would end the session, were they taken: a line of empty segments with a target, a
file command that fails, an enabled `exit`, and a step without a line. -/
theorem branches_dead_fresh :
    let loud : Dead Tree :=
      ⟨fun s => (.ok .terminate, s), fun _ s => (.ok .stop, s), fun s => (.ok .stop, s)⟩
    (∃ line, CommandLine.parse " | > x" = .ok line ∧ line.segments = [none, none] ∧
      (fresh.runSegments .noValue line.segments).1 ≠ .ok .noValue) ∧
    fresh.processLineOr loud " | > x" = fresh.processLine " | > x" ∧
    fresh.executeOr loud "mv" ["a"] "" = fresh.execute "mv" ["a"] "" ∧
    (fresh.execute "exit" ["now"] "").1 = .ok .terminate ∧
    (∃ g, (fresh.processLine "pwd | cat x").1 = .error (.store g)) ∧
    fresh.step.1 = .error .closed := by
  intro loud
  obtain ⟨hline, hcommand, hraw, hstep⟩ := branches_dead fresh
  have hparse : CommandLine.parse " | > x" = .ok ⟨some "x", [none, none]⟩ := rfl
  have hfails : (fresh.processLine "pwd | cat x").1 = .error (.store (.notFound "/x")) := rfl
  have hwaits : ∃ f, fresh.step.1 = .error f := ⟨_, rfl⟩
  refine ⟨⟨_, hparse, rfl, (hline _ _ hparse).2⟩, (hraw _).1 loud, (hcommand _ _ _).2.2 loud, ?_, ?_, ?_⟩
  · exact (hcommand "exit" ["now"] "").2.1.2 ⟨rfl, by decide⟩
  · obtain ⟨g, hg⟩ := (hraw "pwd | cat x").2 _ hfails
    exact ⟨g, by rw [hfails, hg]⟩
  · obtain ⟨f, hf⟩ := hwaits
    rcases hstep f hf with ⟨-, rfl⟩ | ⟨hsome, -⟩
    · exact hf
    · exact absurd rfl hsome

end TreeShell.Session
