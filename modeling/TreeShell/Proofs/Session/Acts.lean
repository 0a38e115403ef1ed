import Mathlib.Logic.Relation
import TreeShell.Proofs.Store.Change
import TreeShell.Session.Loop

/-!
# What a session can do

A session works in single acts: a request to the store, an event on the terminal, a move to another
directory, a line taken from the terminal. Nothing else of a session ever changes, and which acts
there can be depends on what runs.

* `Act`, `Acts`: one act, and any number of permitted ones.
* `Does`, `Executes`, `Ordered`: the acts of a built-in command, of a command by its name, of a line.
* `Led`: an answer that was reached by permitted acts, and that is no failure of the session's own.
* `execute_cases`: a name comes to its built-in command, if it may be run, or is answered as unknown.
* `runBuiltin_led`, `processLine_led`, `step_acts`: **a command, a line and a step are worked off in
  their acts.**
* `step_closed`, `step_taken`: what a step does, with and without a line waiting.
* `Acts.invariant`, `Acts.keeps`, `Acts.fixed`: what every act keeps, all of them keep.
* `processLine_treeOK`: a line keeps the invariant of the file tree, also if it fails half way.
-/

namespace TreeShell.Session

open Command (Builtin CommandLine Segment unknownCommand)
open Store (Backend Request Tree TreeOK)

variable {σ α β : Type} [Backend σ]

/-- One act of a session. -/
inductive Act
  | ask (r : Request)
  | record (e : Event)
  | move (target : Option String)
  /-- The next line is taken from the terminal. -/
  | take

/-- The session after an act. -/
def Act.done (s : Session σ) : Act → Session σ
  | ask r => { s with store := (r.ask s.store).2 }
  | record e => { s with terminal := s.terminal.record e }
  | move target => { s with cwd := WorkDir.move s.cwd target }
  | take => { s with terminal := (s.terminal.readLine s.promptText).2 }

/-- Any number of acts, each permitted in the session it is done in. -/
def Acts (may : Session σ → Act → Prop) : Session σ → Session σ → Prop :=
  Relation.ReflTransGen fun s s' => ∃ a, may s a ∧ s' = a.done s

/-- An answer reached by permitted acts. If it is a failure, it is one of the store. -/
structure Led (may : Session σ → Act → Prop) (s : Session σ) (r : Reply (Session σ) α) : Prop where
  acts : Acts may s r.2
  fault : ∀ f, r.1 = .error f → ∃ g, f = .store g

/-! ## Permitted acts -/

/-- The requests of a built-in command, given the paths of its first two arguments. -/
def Asks (source target : String) : Builtin → Request → Prop
  | .ls, r => r = .list source
  | .cat, r => r = .read source
  | .mkdir, r => r = .createDirectory source
  | .rmdir, r => r = .deleteDirectory source
  | .rm, r => r = .deleteFile source
  | .touch, r => r = .createFile source ""
  | .cp, r => r = .read source ∨ ∃ text, r = .write target text
  | .mv, r => r = .read source ∨ (∃ text, r = .write target text) ∨ r = .deleteFile source
  | _, _ => False

/-- The acts of a built-in command. -/
def Does (b : Builtin) (args : List String) (s : Session σ) : Act → Prop
  | .ask r => Asks (s.locate args[0]?) (s.locate args[1]?) b r
  | .record _ => b = .exit ∨ b = .clear ∨ b = .cd ∨ b = .grep
  | .move target => b = .cd ∧ target = args[0]?
  | .take => False

/-- The acts of the command of that name, where the given names may be run. -/
def Executes (commands : List String) (name : String) (args : List String) (s : Session σ)
    (a : Act) : Prop :=
  name ∈ commands ∧ ∃ b, Builtin.ofName? name = some b ∧ Does b args s a

/-- The acts of a line, or of a step that reads it: those of commands, and a file written at the
target of the redirection. -/
inductive Ordered (commands : List String) (target : Option String) (s : Session σ) : Act → Prop
  | command {name : String} {args : List String} {a : Act} (h : Executes commands name args s a) :
      Ordered commands target s a
  | deliver {path : String} (h : target = some path) (text : String) :
      Ordered commands target s (.ask (.write path text))
  | record (e : Event) : Ordered commands target s (.record e)
  | take : Ordered commands target s .take

/-- Where a line redirects its output to, if it does. -/
def target? (s : Session σ) (raw : String) : Option String :=
  match CommandLine.parse raw with
  | .ok line => line.redirect.map fun t => s.locate (some t)
  | .error _ => none

variable {s s' s'' : Session σ} {r : Reply (Session σ) α} {may may' : Session σ → Act → Prop}
  {next : α → Session σ → Reply (Session σ) β} {commands : List String} {target : Option String}

/-! ## Acts one after the other -/

theorem Acts.refl (s : Session σ) : Acts may s s := Relation.ReflTransGen.refl

theorem Acts.trans (h : Acts may s s') (h' : Acts may s' s'') : Acts may s s'' :=
  Relation.ReflTransGen.trans h h'

theorem Act.acts {a : Act} (h : may s a) : Acts may s (a.done s) := .single ⟨a, h, rfl⟩

theorem Acts.mono (hmay : ∀ s a, may s a → may' s a) (h : Acts may s s') : Acts may' s s' :=
  Relation.ReflTransGen.mono (fun s _ ⟨a, ha, hs⟩ => ⟨a, hmay s a ha, hs⟩) _ _ h

/-- **What every permitted act keeps**, all of them keep. -/
theorem Acts.invariant {I : Session σ → Prop} (hI : ∀ s a, may s a → I s → I (a.done s))
    (h : Acts may s s') (hs : I s) : I s' := by
  induction h with
  | refl => exact hs
  | tail _ hact ih =>
    obtain ⟨a, ha, rfl⟩ := hact
    exact hI _ a ha ih

/-- What every request keeps of the store, acts keep. -/
theorem Acts.keeps {P : σ → Prop} (hP : ∀ (r : Request) t, P t → P (r.ask t).2)
    (h : Acts may s s') (hs : P s.store) : P s'.store := by
  refine h.invariant (I := fun s => P s.store) (fun s a _ hs => ?_) hs
  cases a with
  | ask r => exact hP r _ hs
  | record e => exact hs
  | move target => exact hs
  | take => exact hs

/-- What may be run, and how the prompt looks, never changes. -/
theorem Acts.fixed (h : Acts may s s') : s'.commands = s.commands ∧ s'.prompt = s.prompt := by
  refine h.invariant (I := fun s' => s'.commands = s.commands ∧ s'.prompt = s.prompt)
    (fun s' a _ hs => ?_) ⟨rfl, rfl⟩
  cases a <;> exact hs

theorem say_acts (s : Session σ) (text : String) (h : may s (.record (.line text))) :
    Acts may s (s.say text) := Act.acts h

theorem warn_acts (s : Session σ) (text : String) (h : may s (.record (.error text))) :
    Acts may s (s.warn text) := Act.acts h

theorem Led.of_ok (h : Acts may s s') (a : α) : Led may s (.ok a, s') :=
  ⟨h, fun f hf => by cases hf⟩

theorem output_led (h : Acts may s s') (text : String) : Led may s (s'.output text) := .of_ok h _

theorem Led.mono (hmay : ∀ s a, may s a → may' s a) (h : Led may s r) : Led may' s r :=
  ⟨h.acts.mono hmay, h.fault⟩

theorem Led.andThen (h : Led may s r) (hn : ∀ a s', Acts may s s' → Led may s' (next a s')) :
    Led may s (andThen r next) := by
  obtain ⟨answer, s'⟩ := r
  cases answer with
  | error f =>
    refine ⟨h.acts, fun g hg => ?_⟩
    exact h.fault g (by cases hg; rfl)
  | ok a =>
    have hnext := hn a s' h.acts
    exact ⟨h.acts.trans hnext.acts, hnext.fault⟩

omit [Backend σ] in
/-- What an answer behind another one comes from. -/
theorem andThen_ok {b : β} (h : (andThen r next).1 = .ok b) :
    ∃ a s', r = (.ok a, s') ∧ (next a s').1 = .ok b := by
  obtain ⟨answer, s'⟩ := r
  cases answer with
  | error f => cases h
  | ok a => exact ⟨a, s', rfl, h⟩

/-- A request, and what follows it in the same directory. -/
theorem ask_andThen (s : Session σ) (request : σ → Except Store.Fault α × σ) (r : Request)
    (hr : ∀ t, (request t).2 = (r.ask t).2) (hmay : may s (.ask r))
    (hn : ∀ a s', s'.cwd = s.cwd → Led may s' (next a s')) :
    Led may s (Session.andThen (s.ask request) next) := by
  have hstate : (s.ask request).2 = (Act.ask r).done s := by
    show { s with store := (request s.store).2 } = _
    rw [hr]
    rfl
  have hanswer : (s.ask request).1 = (request s.store).1.mapError .store := rfl
  cases hreply : s.ask request with | mk answer s' =>
  rw [hreply] at hstate hanswer
  obtain rfl : s' = (Act.ask r).done s := hstate
  cases answer with
  | ok a =>
    have hnext := hn a ((Act.ask r).done s) rfl
    exact ⟨(Act.acts hmay).trans hnext.acts, hnext.fault⟩
  | error f =>
    refine ⟨Act.acts hmay, fun g hg => ?_⟩
    obtain rfl : f = g := Except.error.inj hg
    cases hrequest : (request s.store).1 with
    | ok a =>
      rw [hrequest] at hanswer
      cases hanswer
    | error fault =>
      rw [hrequest] at hanswer
      exact ⟨fault, Except.error.inj hanswer⟩

/-! ## Commands -/

theorem name_of_ofName? {name : String} {b : Builtin} (h : Builtin.ofName? name = some b) :
    b.name = name := by
  simpa using List.find?_some h

theorem ofName?_name (b : Builtin) : Builtin.ofName? b.name = some b := by
  cases b <;> decide

omit [Backend σ] in
theorem isEnabled_iff {name : String} : s.isEnabled name = true ↔ name ∈ s.commands :=
  List.contains_iff_mem

/-- A command that may be run is the built-in of its name. -/
theorem execute_builtin (b : Builtin) (h : b.name ∈ s.commands) (args : List String)
    (piped : String) : s.execute b.name args piped = s.runBuiltin b args piped := by
  have henabled : s.isEnabled b.name = true := isEnabled_iff.mpr h
  unfold execute
  rw [if_pos henabled, ofName?_name]

/-- **A name that is not enabled, or not built in**, is answered as unknown, and nothing happens. -/
theorem execute_unknown {name : String} (h : ¬ (name ∈ s.commands ∧ ∃ b : Builtin, b.name = name))
    (args : List String) (piped : String) :
    s.execute name args piped = (.ok (.text (unknownCommand name)), s) := by
  unfold execute
  split
  · rename_i henabled
    have hname : name ∈ s.commands := isEnabled_iff.mp henabled
    split
    · rename_i b hb
      exact absurd ⟨hname, b, name_of_ofName? hb⟩ h
    · rfl
  · rfl

/-- All that a name can come to. -/
theorem execute_cases (s : Session σ) (name : String) (args : List String) (piped : String) :
    (∃ b : Builtin, b.name = name ∧ name ∈ s.commands ∧
      s.execute name args piped = s.runBuiltin b args piped) ∨
      s.execute name args piped = s.output (unknownCommand name) := by
  by_cases h : name ∈ s.commands ∧ ∃ b : Builtin, b.name = name
  · obtain ⟨hname, b, rfl⟩ := h
    exact .inl ⟨b, rfl, hname, execute_builtin b hname args piped⟩
  · exact .inr (execute_unknown h args piped)

theorem change_led (s : Session σ) (path report : String)
    (request : String → σ → Except Store.Fault Unit × σ) (r : Request)
    (hr : ∀ t, (request path t).2 = (r.ask t).2) (hmay : may s (.ask r)) :
    Led may s (s.change path report request) :=
  ask_andThen s (request path) r hr hmay fun _ s _ => output_led (.refl s) _

omit [Backend σ] in
/-- `grep` gives a text, or an empty one after a warning. -/
theorem grep_cases (s : Session σ) (pattern : Option String) (piped : String) :
    (∃ text, s.grep pattern piped = s.output text) ∨
      ∃ warning, s.grep pattern piped = (s.warn warning).output "" := by
  unfold grep
  split
  · exact .inr ⟨_, rfl⟩
  · exact .inl ⟨_, rfl⟩

omit [Backend σ] in
/-- `help` gives a text. -/
theorem help_output (s : Session σ) (name : Option String) : ∃ text, s.help name = s.output text := by
  unfold help
  split
  · exact ⟨_, rfl⟩
  · split <;> exact ⟨_, rfl⟩

theorem grep_led (s : Session σ) (pattern : Option String) (piped : String)
    (hmay : ∀ e, may s (.record e)) : Led may s (s.grep pattern piped) := by
  rcases grep_cases s pattern piped with ⟨text, h⟩ | ⟨warning, h⟩
  · rw [h]
    exact output_led (.refl s) text
  · rw [h]
    exact output_led (warn_acts s warning (hmay _)) ""

theorem help_led (s : Session σ) (name : Option String) : Led may s (s.help name) := by
  obtain ⟨text, h⟩ := help_output s name
  rw [h]
  exact output_led (.refl s) text

/-- **A built-in command is worked off in its acts.** -/
theorem runBuiltin_led (s : Session σ) (b : Builtin) (args : List String) (piped : String) :
    Led (Does b args) s (s.runBuiltin b args piped) := by
  -- the paths are located once, and a request leaves the directory they are located from
  have hlocate : ∀ {s' : Session σ} (arg : Option String), s'.cwd = s.cwd →
      s'.locate arg = s.locate arg := fun arg h => congrArg (WorkDir.locate arg) h
  cases b with
  | ls => exact ask_andThen s _ (.list _) (fun _ => rfl) rfl fun _ s _ => output_led (.refl s) _
  | cat => exact ask_andThen s _ (.read _) (fun _ => rfl) rfl fun _ s _ => output_led (.refl s) _
  | help => exact help_led s _
  | exit => exact .of_ok (say_acts s _ (.inl rfl)) _
  | clear =>
    have hclear : Does .clear args s (.record .screenCleared) := .inr (.inl rfl)
    exact output_led (Act.acts hclear) ""
  | cd =>
    have hmove : Does .cd args s (.move args[0]?) := ⟨rfl, rfl⟩
    have hsay : ∀ (s : Session σ) e, Does .cd args s (.record e) := fun _ _ => .inr (.inr (.inl rfl))
    exact output_led ((Act.acts hmove).trans (say_acts _ _ (hsay _ _))) ""
  | echo => exact output_led (.refl s) _
  | mkdir => exact change_led s _ _ Backend.createDirectory (.createDirectory _) (fun _ => rfl) rfl
  | rmdir => exact change_led s _ _ Backend.deleteDirectory (.deleteDirectory _) (fun _ => rfl) rfl
  | rm => exact change_led s _ _ Backend.deleteFile (.deleteFile _) (fun _ => rfl) rfl
  | touch =>
    exact change_led s _ _ (Backend.createFile · "") (.createFile _ "") (fun _ => rfl) rfl
  | cp =>
    refine ask_andThen s _ (.read _) (fun _ => rfl) (.inl rfl) fun text s' h' => ?_
    refine ask_andThen s' _ (.write _ text) (fun _ => rfl) ?_ fun _ s _ => output_led (.refl s) _
    exact .inr ⟨text, by rw [hlocate _ h']⟩
  | mv =>
    refine ask_andThen s _ (.read _) (fun _ => rfl) (.inl rfl) fun text s' h' => ?_
    refine ask_andThen s' _ (.write _ text) (fun _ => rfl) ?_ fun _ s'' h'' => ?_
    · exact .inr (.inl ⟨text, by rw [hlocate _ h']⟩)
    refine ask_andThen s'' _ (.deleteFile _) (fun _ => rfl) ?_ fun _ s _ => output_led (.refl s) _
    exact .inr (.inr (by rw [hlocate _ (h''.trans h')]))
  | pwd => exact output_led (.refl s) _
  | grep => exact grep_led s _ _ fun _ => .inr (.inr (.inr rfl))

/-- **A command is worked off in the acts of the built-in of its name**, if it may be run. -/
theorem execute_led (s : Session σ) (name : String) (args : List String) (piped : String) :
    Led (Executes s.commands name args) s (s.execute name args piped) := by
  obtain ⟨b, rfl, hname, hrun⟩ | hrun := execute_cases s name args piped
  · rw [hrun]
    exact (runBuiltin_led s b args piped).mono fun _ _ h => ⟨hname, b, ofName?_name b, h⟩
  · rw [hrun]
    exact output_led (.refl s) _

/-! ## Lines -/

theorem runSegment_led (s : Session σ) (g : Option Segment) (piped : String) :
    Led (Ordered s.commands target) s (s.runSegment g piped) := by
  cases g with
  | none => exact (execute_led s "" [] piped).mono fun _ _ => .command
  | some g => exact (execute_led s g.name g.args piped).mono fun _ _ => .command

theorem runSegment_commands (s : Session σ) (g : Option Segment) (piped : String) :
    (s.runSegment g piped).2.commands = s.commands := by
  have hled : Led (Ordered s.commands none) s (s.runSegment g piped) := runSegment_led s g piped
  exact hled.acts.fixed.1

/-- Behind a command that neither fails nor ends the session, the pipeline goes on. -/
theorem runSegments_next {g : Option Segment} {last outcome : Outcome}
    (h : s.runSegment g last.piped = (.ok outcome, s')) (hgo : outcome ≠ .terminate)
    (gs : List (Option Segment)) : s.runSegments last (g :: gs) = s'.runSegments outcome gs := by
  have hcons : s.runSegments last (g :: gs) = andThen (.ok outcome, s') _ :=
    congrArg (andThen · _) h
  rw [hcons]
  cases outcome with
  | terminate => exact absurd rfl hgo
  | text output => rfl
  | noValue => rfl

/-- An answer behind which no pipeline goes on: it fails, or it ends the session. -/
def CutShort (r : Reply (Session σ) Outcome) : Prop := ∀ outcome, r.1 = .ok outcome → outcome = .terminate

omit [Backend σ] in
theorem cutShort_or (r : Reply (Session σ) Outcome) :
    CutShort r ∨ ∃ outcome s', r = (.ok outcome, s') ∧ outcome ≠ .terminate := by
  obtain ⟨answer, s'⟩ := r
  cases answer with
  | error f => exact .inl fun outcome h => by cases h
  | ok outcome =>
    by_cases hend : outcome = .terminate
    · exact .inl fun outcome' h => (Except.ok.inj h).symm.trans hend
    · exact .inr ⟨outcome, s', rfl, hend⟩

/-- Behind a command that fails or ends the session, the pipeline is over. -/
theorem runSegments_cut {g : Option Segment} {last : Outcome}
    (h : CutShort (s.runSegment g last.piped)) (gs : List (Option Segment)) :
    s.runSegments last (g :: gs) = s.runSegment g last.piped := by
  have hcons : s.runSegments last (g :: gs) = andThen (s.runSegment g last.piped) _ := rfl
  rw [hcons]
  generalize s.runSegment g last.piped = r at h ⊢
  obtain ⟨answer, s'⟩ := r
  cases answer with
  | error f => rfl
  | ok outcome =>
    obtain rfl := h outcome rfl
    rfl

theorem runSegments_led (s : Session σ) (last : Outcome) (gs : List (Option Segment)) :
    Led (Ordered s.commands target) s (s.runSegments last gs) := by
  induction gs generalizing s last with
  | nil => exact .of_ok (.refl s) last
  | cons g gs ih =>
    unfold runSegments
    refine (runSegment_led s g _).andThen fun outcome s' hacts => ?_
    rw [← hacts.fixed.1]
    cases outcome with
    | terminate => exact .of_ok (.refl s') _
    | text output => exact ih s' (.text output)
    | noValue => exact ih s' .noValue

theorem runSegments_commands (s : Session σ) (last : Outcome) (gs : List (Option Segment)) :
    (s.runSegments last gs).2.commands = s.commands := by
  have hled : Led (Ordered s.commands none) s (s.runSegments last gs) := runSegments_led s last gs
  exact hled.acts.fixed.1

theorem deliver_led (s : Session σ) (target : Option String) (last : Outcome) :
    Led (Ordered commands target) s (s.deliver target last) := by
  unfold deliver
  split
  · refine ask_andThen s _ (.write _ _) (fun _ => rfl) (.deliver rfl _) fun _ s _ => ?_
    exact .of_ok (say_acts s _ (.record _)) _
  · exact .of_ok (say_acts s _ (.record _)) _
  · split
    · exact .of_ok (.refl s) _
    · exact .of_ok (say_acts s _ (.record _)) _
  · exact .of_ok (.refl s) _

/-- **A line is worked off in its acts.** -/
theorem processLine_led (s : Session σ) (raw : String) :
    Led (Ordered s.commands (s.target? raw)) s (s.processLine raw) := by
  unfold processLine target?
  cases CommandLine.parse raw with
  | error f => exact .of_ok (warn_acts s _ (.record _)) _
  | ok line =>
    unfold runLine
    refine (runSegments_led s .noValue _).andThen fun last s' _ => ?_
    cases last with
    | terminate => exact .of_ok (.refl s') _
    | text output => exact deliver_led s' _ (.text output)
    | noValue => exact deliver_led s' _ .noValue

/-! ## Steps -/

/-- What a step does once its line has been processed. -/
def settled (status : LineStatus) (s : Session σ) : Reply (Session σ) LineStatus :=
  match status with
  | .proceed => (.ok .proceed, { s with terminal := s.terminal.clearInput })
  | .stop => (.ok .stop, s)

theorem step_closed (h : s.terminal.input = []) : s.step = (.error .closed, Act.take.done s) := by
  unfold step
  simp only [Terminal.readLine, Terminal.record, h, Act.done]

theorem step_taken {raw : String} {rest : List String} (h : s.terminal.input = raw :: rest) :
    s.step = if Text.allBlank raw then (.ok .proceed, Act.take.done s)
      else andThen ((Act.take.done s).processLine raw) settled := by
  have hread : s.terminal.readLine s.promptText =
      (some raw, (s.terminal.readLine s.promptText).2) := by
    simp only [Terminal.readLine, Terminal.record, h]
  unfold step
  rw [hread]
  rfl

/-- **A step is worked off in the acts of the line it reads.** -/
theorem step_acts (s : Session σ) :
    Acts (Ordered s.commands (s.terminal.input.head?.bind s.target?)) s s.step.2 := by
  have htake : Acts (Ordered s.commands (s.terminal.input.head?.bind s.target?)) s
      (Act.take.done s) := Act.acts .take
  cases hinput : s.terminal.input with
  | nil =>
    rw [step_closed hinput]
    rwa [hinput] at htake
  | cons raw rest =>
    rw [step_taken hinput]
    rw [hinput] at htake
    split
    · exact htake
    · refine htake.trans (Led.acts ?_)
      refine (processLine_led (Act.take.done s) raw).andThen fun status s' _ => ?_
      cases status with
      | proceed =>
        have hclear : Ordered s.commands (s.target? raw) s' (.record .inputCleared) := .record _
        exact .of_ok (Act.acts hclear) _
      | stop => exact .of_ok (.refl s') _

/-- What every step keeps, and every report of a failure, any number of steps keep. -/
theorem steps_keeps {I : Session σ → Prop} (hstep : ∀ s, I s → I s.step.2)
    (hwarn : ∀ s text, I s → I (s.warn text)) (n : Nat) (hs : I s) : I (steps n s) := by
  induction n generalizing s with
  | zero => exact hs
  | succ n ih =>
    have hafter := hstep s hs
    unfold steps
    split
    · rename_i hreply
      rw [hreply] at hafter
      exact ih hafter
    · rename_i hreply
      rwa [hreply] at hafter
    · rename_i hreply
      rwa [hreply] at hafter
    · rename_i hreply
      rw [hreply] at hafter
      exact ih (hwarn _ _ hafter)

/-- A line keeps the invariant of the file tree, also one that fails half way. -/
theorem processLine_treeOK {s : Session Tree} (hs : TreeOK s.store) (raw : String) :
    TreeOK (s.processLine raw).2.store :=
  (processLine_led s raw).acts.keeps (fun r _ ht => Store.ask_ok ht r) hs

end TreeShell.Session
