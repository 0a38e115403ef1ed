import TreeShell.Proofs.Session.Directory
import TreeShell.Proofs.Session.Fold
import TreeShell.Proofs.Session.Pipeline

/-!
# A restricted image confines its session

What a session may run is fixed when it starts. A name that is not among its commands does nothing
at all, and what a command is needed for cannot happen without it.

* `Untouched`: a tree that stays as it is where no enabled command changes it and no line redirects.
* `Stops.exit`: only an enabled `exit` ends a session.
* `run_confined`: **all of it for a run**, whatever the image, the tree and the lines.
-/

namespace TreeShell.Session

open Command (Builtin CommandLine Segment unknownCommand)
open Store (Backend Request Tree)

/-- The commands that change a store. -/
def changing : List Builtin := [.mkdir, .rmdir, .rm, .touch, .cp, .mv]

variable {σ : Type}

/-- A chunk without a word is the command with the empty name, which is never built in. -/
theorem runSegment_empty [Backend σ] (s : Session σ) (piped : String) :
    s.runSegment none piped = (.ok (.text (unknownCommand "")), s) := by
  have hempty : ∀ b : Builtin, b.name ≠ "" := by
    intro b
    cases b <;> decide
  exact execute_unknown (fun ⟨_, b, hb⟩ => hempty b hb) [] piped

/-! ## The tree -/

/-- A line without a `>` has no target. -/
theorem target?_plain {raw : String} (s : Session σ) (h : '>' ∉ raw.toList) :
    s.target? raw = none := by
  unfold target?
  rw [CommandLine.parse_plain h]
  rfl

/-- A command that does not change a store only reads it. -/
theorem Asks.reads {source target : String} {b : Builtin} {r : Request} (hb : b ∉ changing)
    (h : Asks source target b r) (t : Tree) : (r.ask t).2 = t := by
  cases b with
  | ls => obtain rfl := h; rfl
  | cat => obtain rfl := h; rfl
  | mkdir | rmdir | rm | touch | cp | mv => exact absurd (by decide) hb
  | help | exit | clear | cd | echo | pwd | grep => exact h.elim

theorem take_input [Backend σ] (s : Session σ) :
    (Act.take.done s).terminal.input = s.terminal.input.tail := by
  unfold Act.done Terminal.readLine Terminal.record
  cases hinput : s.terminal.input with
  | nil => rfl
  | cons raw rest => rfl

/-- A session that has left the tree as it was, with nothing enabled that changes it and no line
waiting that redirects. -/
structure Untouched (tree : Tree) (s : Session Tree) : Prop where
  store : s.store = tree
  commands : ∀ b ∈ changing, b.name ∉ s.commands
  lines : ∀ line ∈ s.terminal.input, '>' ∉ line.toList

variable {tree : Tree} {s : Session Tree}

theorem Untouched.done {a : Act} (h : Untouched tree s) (ha : Ordered s.commands none s a) :
    Untouched tree (a.done s) := by
  cases a with
  | ask r =>
    refine ⟨?_, h.commands, h.lines⟩
    cases ha with
    | command hcommand =>
      obtain ⟨hname, b, hb, hasks⟩ := hcommand
      have hreads : b ∉ changing := by
        intro hb'
        rw [← name_of_ofName? hb] at hname
        exact h.commands b hb' hname
      exact (hasks.reads hreads s.store).trans h.store
    | deliver htarget => cases htarget
  | record e => exact ⟨h.store, h.commands, h.lines⟩
  | move target => exact ⟨h.store, h.commands, h.lines⟩
  | take =>
    refine ⟨h.store, h.commands, fun line hline => ?_⟩
    rw [take_input] at hline
    exact h.lines line (List.mem_of_mem_tail hline)

theorem Untouched.step (h : Untouched tree s) : Untouched tree s.step.2 := by
  have htarget : s.terminal.input.head?.bind s.target? = none := by
    cases hinput : s.terminal.input with
    | nil => rfl
    | cons raw rest => exact s.target?_plain (h.lines raw (hinput ▸ List.mem_cons_self))
  have hacts := s.step_acts
  rw [htarget] at hacts
  -- the commands are those of the start all along, so every act is one of an untouched session
  have hboth := hacts.invariant (I := fun t => Untouched tree t ∧ t.commands = s.commands)
    (fun t a ha ht => ⟨ht.1.done (ht.2 ▸ ha), ?_⟩) ⟨h, rfl⟩
  · exact hboth.1
  · exact (Act.acts ha).fixed.1.trans ht.2

/-! ## The directory -/

section Staying

variable [Backend σ] {s : Session σ}

theorem execute_stays (h : "cd" ∉ s.commands) (name : String) (args : List String)
    (piped : String) : (s.execute name args piped).2.cwd = s.cwd :=
  (execute_led s name args piped).acts.cwd_eq fun _ _ hmove => h hmove.move.2

theorem steps_stay (h : "cd" ∉ s.commands) (n : Nat) : (steps n s).cwd = s.cwd := by
  have hkeeps : (steps n s).cwd = s.cwd ∧ (steps n s).commands = s.commands := by
    refine steps_keeps (I := fun t => t.cwd = s.cwd ∧ t.commands = s.commands)
      (fun t ht => ?_) (fun _ _ ht => ht) n ⟨rfl, rfl⟩
    have hstep : t.step.2.cwd = t.cwd :=
      t.step_acts.cwd_eq fun _ _ hmove => h (ht.2 ▸ hmove.move)
    exact ⟨hstep.trans ht.1, t.step_acts.fixed.1.trans ht.2⟩
  exact hkeeps.1

end Staying

/-! ## The end of a session -/

section Ending

variable [Backend σ] {s : Session σ}

theorem deliver_proceed (s : Session σ) (target : Option String) (last : Outcome) :
    (s.deliver target last).1 ≠ .ok .stop := by
  intro h
  unfold deliver at h
  split at h
  · obtain ⟨_, _, _, hsaid⟩ := andThen_ok h
    cases hsaid
  · cases h
  · cases h
  · cases h

/-- **Only an enabled `exit` ends a session.** -/
theorem Stops.exit {line : String} (h : s.Stops line) : "exit" ∈ s.commands := by
  have hline := h.2
  unfold processLine at hline
  split at hline
  · cases hline
  · obtain ⟨last, s', hpipeline, hend⟩ := andThen_ok hline
    cases last with
    | terminate =>
      rcases runSegments_gives (congrArg Prod.fst hpipeline) with ⟨-, h⟩ | ⟨text, h⟩ | ⟨-, hexit⟩
      · cases h
      · cases h
      · exact hexit
    | text output => exact absurd hend (deliver_proceed s' _ (.text output))
    | noValue => exact absurd hend (deliver_proceed s' _ .noValue)

theorem after_commands (s : Session σ) (lines : List String) :
    (s.after lines).commands = s.commands := by
  induction lines generalizing s with
  | nil => rfl
  | cons line lines ih =>
    have hnext : (s.next line).commands = s.commands := by
      unfold next
      split
      · rfl
      · exact (processLine_led s.alone line).acts.fixed.1
    rw [after_cons, ih, hnext]

/-- Without `exit` all lines are read. -/
theorem Folds.all {waiting read unread : List String} {n : Nat} {events : List Event}
    (hexit : "exit" ∉ s.commands) (h : s.Folds waiting read unread n events) :
    read = waiting ∧ unread = [] ∧ n = waiting.length + 1 := by
  rcases h.ended with ⟨⟨front, line, -, hstops⟩, -⟩ | ⟨-, rfl, rfl, -⟩
  · have hafter := hstops.exit
    rw [after_commands] at hafter
    exact absurd hafter hexit
  · have hread : read = waiting := by rw [h.order, List.append_nil]
    exact ⟨hread, rfl, by rw [hread]⟩

end Ending

/-! ## Runs -/

/-- **What a run of a restricted image does not do.** For every image, tree and lines: a name that is
not listed or not built in is answered as unknown and does nothing; without a command that changes
the tree and without a redirection the tree stays; without `cd` the session stays in the root
directory; without `exit` every line is read. -/
theorem run_confined (image : Image) (prompt : String) (tree : Tree) (lines : List String) :
    let s := (Machine.mk tree (.ofInput lines)).session image.commands prompt
    (∀ t : Session Tree, t.commands = image.commands →
      (∀ name args piped, ¬ (name ∈ image.commands ∧ ∃ b : Builtin, b.name = name) →
        t.execute name args piped = (.ok (.text (unknownCommand name)), t)) ∧
      ∀ piped, t.runSegment none piped = (.ok (.text (unknownCommand "")), t)) ∧
    ((∀ b ∈ changing, b.name ∉ image.commands) → (∀ line ∈ lines, '>' ∉ line.toList) →
      s.run.store = tree) ∧
    ("cd" ∉ image.commands →
      (∀ t : Session Tree, t.commands = image.commands →
        ∀ name args piped, (t.execute name args piped).2.cwd = t.cwd) ∧
      (∀ n, (steps n (s.say "Welcome to vos")).cwd = "/") ∧ s.run.cwd = "/") ∧
    ("exit" ∉ image.commands → ∃ events, s.Folds lines lines [] (lines.length + 1) events ∧
      (s.say "Welcome to vos").Ends (lines.length + 1) s.run ∧
      s.run = { s.after lines with terminal := ⟨[], .line "Welcome to vos" :: events⟩ }) := by
  intro s
  refine ⟨fun t ht => ⟨?_, t.runSegment_empty⟩, fun hchanging hlines => ?_, fun hcd => ?_,
    fun hexit => ?_⟩
  · intro name args piped hname
    rw [← ht] at hname
    exact execute_unknown hname args piped
  · have hstart : Untouched tree (s.say "Welcome to vos") := ⟨rfl, hchanging, hlines⟩
    have hrun : Untouched tree s.run := steps_keeps (fun _ h => h.step)
      (fun _ _ h => ⟨h.store, h.commands, h.lines⟩) _ hstart
    exact hrun.store
  · have hsteps : ∀ n, (steps n (s.say "Welcome to vos")).cwd = "/" := fun n => steps_stay hcd n
    exact ⟨fun t ht name args piped => execute_stays (ht ▸ hcd) name args piped, hsteps, hsteps _⟩
  · obtain ⟨n, read, unread, events, hfolds, -, hends, hsteps⟩ :=
      steps_folds s lines [.line "Welcome to vos"]
    obtain ⟨rfl, rfl, rfl⟩ := hfolds.all hexit
    have hrun : s.run = _ := hsteps
    exact ⟨events, hfolds, hrun ▸ hends, hrun⟩

/-- An image that lists `ls`, and a name that is not built in. -/
theorem run_confined_ls :
    let s := (Machine.mk Tree.empty (.ofInput ["mkdir a", "cd a", "exit", "sudo | ls"])).session
      ["ls", "sudo"] defaultPrompt
    s.execute "sudo" ["ls"] "" = (.ok (.text (unknownCommand "sudo")), s) ∧
      s.run.store = Tree.empty ∧ s.run.cwd = "/" ∧ s.run.terminal.input = [] := by
  have hsudo : ¬ ∃ b : Builtin, b.name = "sudo" := by
    rintro ⟨b, hb⟩
    cases b <;> exact absurd hb (by decide)
  have hconfined := run_confined ⟨"vsh", "0.1.0", ["ls", "sudo"], ""⟩ defaultPrompt Tree.empty
    ["mkdir a", "cd a", "exit", "sudo | ls"]
  -- with the session written out on both sides, nothing is run to compare them
  dsimp only at hconfined ⊢
  obtain ⟨hunknown, htree, hcwd, hread⟩ := hconfined
  refine ⟨(hunknown _ rfl).1 _ _ _ fun h => hsudo h.2, htree (by decide) (by decide),
    (hcwd (by decide)).2.2, ?_⟩
  obtain ⟨events, -, -, hrun⟩ := hread (by decide)
  rw [hrun]

end TreeShell.Session
