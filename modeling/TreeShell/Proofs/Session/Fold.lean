import TreeShell.Proofs.Session.Acts
import TreeShell.Proofs.Session.Record

/-!
# A run is a fold over the waiting lines

The loop of a session has no bound of its own: it goes on until a step stops it or finds the
terminal closed. `Ends` is that loop. Beside it stands what the lines do one after the other, on
terminals of their own: `next` for one line, `after` for several, `record` for what they leave.

* `Ends.unique`: the loop ends in one way.
* `rendered`: a prompt told by its template. `promptText_eq`: it is the one that is shown.
* `step_line`: what a step does with the next line, by `next` and `lineRecord`.
* `steps_folds`: the same for any number of steps, by induction on the lines.
* `run_folds`: **the run of a session is the loop, and ends.** It reads the lines in order up to the
  first that ends the session, and comes to what the fold over them comes to.
-/

namespace TreeShell.Session

open Store (Backend)

variable {σ : Type}

/-! ## Prompts -/

/-- A template with the directory in place of every mark, from left to right. -/
def fillMarks (cwd : List Char) : List Char → List Char
  | '\x7b' :: 'c' :: 'w' :: 'd' :: '\x7d' :: s => cwd ++ fillMarks cwd s
  | c :: s => c :: fillMarks cwd s
  | [] => []

/-- **The prompt**: the template with the working directory in place of every `{cwd}`. -/
def rendered (s : Session σ) : String :=
  String.ofList (fillMarks s.cwd.toList s.prompt.toList)

/-- The marks are found where the template has them. By induction on the template, a mark or another
character at a time. -/
theorem replaceCovered_mark (cwd template : List Char) :
    Text.replaceCovered cwdMark.toList cwd 0 template = fillMarks cwd template := by
  have hmark : cwdMark.toList = ['\x7b', 'c', 'w', 'd', '\x7d'] := rfl
  rw [hmark]
  induction template using fillMarks.induct with
  | case1 s ih =>
    have hfound : (['\x7b', 'c', 'w', 'd', '\x7d'] : List Char).isPrefixOf
        ('\x7b' :: 'c' :: 'w' :: 'd' :: '\x7d' :: s) = true := by simp
    rw [fillMarks, Text.replaceCovered, if_pos hfound, ← ih]
    rfl
  | case2 c s hother ih =>
    have hmissed : ¬ (['\x7b', 'c', 'w', 'd', '\x7d'] : List Char).isPrefixOf (c :: s) = true := by
      intro hfound
      obtain ⟨rest, hrest⟩ := List.isPrefixOf_iff_prefix.1 hfound
      obtain ⟨rfl, rfl⟩ := List.cons.inj hrest
      exact hother rest rfl rfl
    rw [fillMarks, Text.replaceCovered, if_neg hmissed, ih]
    exact hother
  | case3 => rfl

/-- **The prompt that is shown** is the rendered one. -/
theorem promptText_eq (s : Session σ) : s.promptText = s.rendered := by
  unfold promptText Text.replaceAll rendered
  rw [replaceCovered_mark]

/-! ## The loop -/

variable [Backend σ]

/-- **The loop**, from a session on: it ends after so many steps, and leaves the other session. A
step that fails is reported, unless it failed because the terminal is closed. -/
inductive Ends : Session σ → Nat → Session σ → Prop
  | stopped {s s' : Session σ} (h : s.step = (.ok .stop, s')) : Ends s 1 s'
  | closed {s s' : Session σ} (h : s.step = (.error .closed, s')) : Ends s 1 s'
  | passed {s s' s'' : Session σ} {n : Nat} (h : s.step = (.ok .proceed, s'))
      (rest : Ends s' n s'') : Ends s (n + 1) s''
  | failed {s s' s'' : Session σ} {n : Nat} {f : Failure} (h : s.step = (.error f, s'))
      (hf : f ≠ .closed) (rest : Ends (s'.warn ("Error in shell: " ++ f.message)) n s'') :
      Ends s (n + 1) s''

theorem Ends.unique {s a b : Session σ} {n m : Nat} (ha : Ends s n a) (hb : Ends s m b) :
    n = m ∧ a = b := by
  -- a step has one answer, so both ways go on by the same case
  induction ha generalizing m with
  | stopped h =>
    cases hb with
    | stopped h' => rw [h] at h'; exact ⟨rfl, (Prod.mk.inj h').2⟩
    | closed h' => rw [h] at h'; cases h'
    | passed h' => rw [h] at h'; cases h'
    | failed h' => rw [h] at h'; cases h'
  | closed h =>
    cases hb with
    | stopped h' => rw [h] at h'; cases h'
    | closed h' => rw [h] at h'; exact ⟨rfl, (Prod.mk.inj h').2⟩
    | passed h' => rw [h] at h'; cases h'
    | failed h' hf => rw [h] at h'; cases h'; exact absurd rfl hf
  | passed h _ ih =>
    cases hb with
    | stopped h' => rw [h] at h'; cases h'
    | closed h' => rw [h] at h'; cases h'
    | passed h' rest =>
      rw [h] at h'; cases h'
      obtain ⟨rfl, rfl⟩ := ih rest
      exact ⟨rfl, rfl⟩
    | failed h' => rw [h] at h'; cases h'
  | failed h hf _ ih =>
    cases hb with
    | stopped h' => rw [h] at h'; cases h'
    | closed h' => rw [h] at h'; cases h'; exact absurd rfl hf
    | passed h' => rw [h] at h'; cases h'
    | failed h' _ rest =>
      rw [h] at h'; cases h'
      obtain ⟨rfl, rfl⟩ := ih rest
      exact ⟨rfl, rfl⟩

/-! ## The lines one after the other -/

/-- The session after a line, on a terminal of its own. A blank line is not processed, and one that
fails leaves what it has done. -/
def next (s : Session σ) (line : String) : Session σ :=
  if Text.allBlank line then s.alone else (s.alone.processLine line).2.alone

/-- The session after some lines, on a terminal of its own. -/
def after (s : Session σ) (lines : List String) : Session σ := lines.foldl next s.alone

/-- Whether a line ends the session. -/
def Stops (s : Session σ) (line : String) : Prop :=
  Text.allBlank line = false ∧ (s.alone.processLine line).1 = .ok .stop

/-- What is recorded once a line has been processed. -/
def closing : Except Failure LineStatus → List Event
  | .ok .proceed => [.inputCleared]
  | .ok .stop => []
  | .error f => [.error ("Error in shell: " ++ f.message)]

/-- What is recorded from the prompt for a line on to the end of its processing. -/
def lineRecord (s : Session σ) (line : String) : List Event :=
  let r := s.alone.processLine line
  .prompt s.rendered :: if Text.allBlank line then [] else r.2.terminal.events ++ closing r.1

/-- What is recorded while some lines are read. -/
def record : Session σ → List String → List Event
  | _, [] => []
  | s, line :: lines => s.lineRecord line ++ record (s.next line) lines

/-- Among the lines `read`, the one between `front` and `back` ends the session. -/
def StopsAt (s : Session σ) (read front back : List String) : Prop :=
  ∃ line, read = front ++ line :: back ∧ (s.after front).Stops line

/-- Of the lines `waiting`, the session reads `read` one after the other in `n` steps and records
`events`. Nothing is read behind a line that ends the session. Either there is such a line, or all
are read and the last prompt finds the terminal closed. -/
structure Folds (s : Session σ) (waiting read unread : List String) (n : Nat)
    (events : List Event) : Prop where
  order : waiting = read ++ unread
  first : ∀ front back, s.StopsAt read front back → back = []
  ended :
    ((∃ front, s.StopsAt read front []) ∧ n = read.length ∧ events = s.record read) ∨
    ((∀ front back, ¬ s.StopsAt read front back) ∧ unread = [] ∧ n = read.length + 1 ∧
      events = s.record read ++ [.prompt (s.after read).rendered])

variable {s : Session σ} {line : String} {waiting read unread front back : List String} {n : Nat}
  {events : List Event}

theorem after_cons (s : Session σ) (line : String) (lines : List String) :
    s.after (line :: lines) = (s.next line).after lines := by
  have halone : (s.next line).alone = s.next line := by
    unfold next
    split <;> rfl
  have hnext : s.alone.next line = s.next line := rfl
  unfold after
  rw [List.foldl_cons, halone, hnext]

theorem step_cons (s : Session σ) (line : String) (waiting : List String) (past : List Event) :
    ({ s with terminal := ⟨line :: waiting, past⟩ } : Session σ).step =
      if Text.allBlank line then
        (.ok .proceed, { s with terminal := ⟨waiting, past ++ [.prompt s.rendered]⟩ })
      else
        andThen (answerOnto (s.alone.processLine line) ⟨waiting, past ++ [.prompt s.rendered]⟩)
          fun status s =>
          match status with
          | .proceed => (.ok .proceed, { s with terminal := s.terminal.clearInput })
          | .stop => (.ok .stop, s) := by
  have hshown : s.promptText = s.rendered := promptText_eq s
  have halone : s.alone =
      Session.alone { s with terminal := ⟨waiting, past ++ [.prompt s.rendered]⟩ } := rfl
  rw [halone, ← processLine_alone, ← hshown]
  rfl

/-- **A step with a line waiting.** The line is taken, and the step comes to the session after the
line, with what the line records. If it fails, the store does, and that is yet to be reported. -/
theorem step_line (s : Session σ) (line : String) (waiting : List String) (past : List Event) :
    let before : Session σ := { s with terminal := ⟨line :: waiting, past⟩ }
    let behind : Session σ := { s.next line with terminal := ⟨waiting, past ++ s.lineRecord line⟩ }
    (s.Stops line ∧ before.step = (.ok .stop, behind)) ∨
    (¬ s.Stops line ∧ before.step = (.ok .proceed, behind)) ∨
    (¬ s.Stops line ∧ ∃ f s', f ≠ .closed ∧ before.step = (.error f, s') ∧
      s'.warn ("Error in shell: " ++ f.message) = behind) := by
  intro before behind
  have hstep : before.step = _ := step_cons s line waiting past
  by_cases hb : Text.allBlank line = true
  · have hstop : ¬ s.Stops line := fun hs => by rw [hs.1] at hb; cases hb
    have hbehind : behind = { s with terminal := ⟨waiting, past ++ [.prompt s.rendered]⟩ } := by
      simp only [behind, next, lineRecord, if_pos hb]
      rfl
    rw [if_pos hb] at hstep
    rw [hstep, hbehind]
    exact .inr (.inl ⟨hstop, rfl⟩)
  · have hled := processLine_led s.alone line
    obtain ⟨answer, s', hr⟩ : ∃ answer s', s.alone.processLine line = (answer, s') := ⟨_, _, rfl⟩
    have hstop : s.Stops line ↔ answer = .ok .stop := by
      unfold Stops
      rw [hr]
      exact and_iff_right (Bool.eq_false_iff.mpr hb)
    have hbehind : behind = { s' with terminal :=
        ⟨waiting, past ++ [.prompt s.rendered] ++ s'.terminal.events ++ closing answer⟩ } := by
      simp only [behind, next, lineRecord, hr, if_neg hb, List.append_assoc, List.cons_append,
        List.nil_append]
      rfl
    rw [if_neg hb, hr] at hstep
    rw [hr] at hled
    rw [hstop, hstep, hbehind]
    cases answer with
    | ok status =>
      cases status with
      | proceed => exact .inr (.inl ⟨by simp, rfl⟩)
      | stop => exact .inl ⟨rfl, by rw [closing, List.append_nil]; rfl⟩
    | error f =>
      obtain ⟨g, rfl⟩ := hled.fault f rfl
      exact .inr (.inr ⟨by simp, .store g, _, by simp, rfl, rfl⟩)

/-! ## The run -/

theorem stopsAt_cons (hs : ¬ s.Stops line) : s.StopsAt (line :: read) front back ↔
    ∃ front', front = line :: front' ∧ (s.next line).StopsAt read front' back := by
  constructor
  · rintro ⟨last, heq, hlast⟩
    cases front with
    | nil =>
      obtain ⟨rfl, -⟩ := List.cons.inj heq
      exact absurd hlast hs
    | cons x front' =>
      obtain ⟨rfl, hread⟩ := List.cons.inj heq
      rw [after_cons] at hlast
      exact ⟨front', rfl, last, hread, hlast⟩
  · rintro ⟨front', rfl, last, rfl, hlast⟩
    rw [← after_cons] at hlast
    exact ⟨last, rfl, hlast⟩

/-- Behind a line that does not end the session, lines are read as from the session after it. -/
theorem Folds.cons (hs : ¬ s.Stops line) (h : (s.next line).Folds waiting read unread n events) :
    s.Folds (line :: waiting) (line :: read) unread (n + 1) (s.lineRecord line ++ events) := by
  refine ⟨by rw [h.order, List.cons_append], ?_, ?_⟩
  · intro front back hat
    obtain ⟨front', -, hat⟩ := (stopsAt_cons hs).mp hat
    exact h.first front' back hat
  · rcases h.ended with ⟨⟨front, hat⟩, rfl, rfl⟩ | ⟨hnone, rfl, rfl, rfl⟩
    · exact .inl ⟨⟨line :: front, (stopsAt_cons hs).mpr ⟨front, rfl, hat⟩⟩, rfl, rfl⟩
    · refine .inr ⟨?_, rfl, rfl, ?_⟩
      · intro front back hat
        obtain ⟨front', -, hat⟩ := (stopsAt_cons hs).mp hat
        exact hnone front' back hat
      · rw [after_cons, record, List.append_assoc]

/-- A line that ends the session is the last one read. -/
theorem Folds.stop (hs : s.Stops line) (waiting : List String) :
    s.Folds (line :: waiting) [line] waiting 1 (s.lineRecord line) := by
  refine ⟨rfl, ?_, .inl ⟨⟨[], line, rfl, hs⟩, rfl, ?_⟩⟩
  · rintro front back ⟨last, heq, -⟩
    have hlength := congrArg List.length heq
    simp only [List.length_append, List.length_cons, List.length_nil] at hlength
    exact List.length_eq_zero_iff.mp (by omega)
  · simp only [record, List.append_nil]

/-- Without a line waiting, the prompt finds the terminal closed. -/
theorem Folds.nil (s : Session σ) : s.Folds [] [] [] 1 [.prompt s.rendered] := by
  have hnone : ∀ front back, ¬ s.StopsAt [] front back := by
    rintro front back ⟨last, heq, -⟩
    simp at heq
  exact ⟨rfl, fun front back hat => absurd hat (hnone front back), .inr ⟨hnone, rfl, rfl, rfl⟩⟩

/-- **The steps of a session are the loop**, and come to what the lines come to. By induction on the
lines: a step takes one of them, and the session after it does not depend on the terminal. -/
theorem steps_folds (s : Session σ) (waiting : List String) (past : List Event) :
    ∃ n read unread events, s.Folds waiting read unread n events ∧ n ≤ waiting.length + 1 ∧
      let before : Session σ := { s with terminal := ⟨waiting, past⟩ }
      let behind : Session σ := { s.after read with terminal := ⟨unread, past ++ events⟩ }
      before.Ends n behind ∧ steps (waiting.length + 1) before = behind := by
  induction waiting generalizing s past with
  | nil =>
    refine ⟨1, [], [], _, .nil s, Nat.le_refl 1, ?_⟩
    rw [← promptText_eq]
    exact ⟨.closed rfl, rfl⟩
  | cons line waiting ih =>
    obtain ⟨n, read, unread, events, hfolds, hn, hends, hsteps⟩ :=
      ih (s.next line) (past ++ s.lineRecord line)
    rw [List.append_assoc, ← after_cons] at hends hsteps
    rcases step_line s line waiting past with
      ⟨hs, hstep⟩ | ⟨hs, hstep⟩ | ⟨hs, f, s', hf, hstep, hwarn⟩
    · refine ⟨1, [line], waiting, _, .stop hs waiting, by simp, ?_, ?_⟩
      · rw [after_cons]
        exact .stopped hstep
      · rw [after_cons, steps, hstep]
        rfl
    · refine ⟨n + 1, line :: read, unread, _, hfolds.cons hs, by simpa using hn, ?_, ?_⟩
      · exact .passed hstep hends
      · rw [steps, hstep]
        exact hsteps
    · refine ⟨n + 1, line :: read, unread, _, hfolds.cons hs, by simpa using hn, ?_, ?_⟩
      · exact .failed hstep hf (hwarn ▸ hends)
      · rw [steps, hstep]
        simp only [hwarn]
        exact hsteps

/-- **A run is a fold over the waiting lines.** -/
theorem run_folds (s : Session σ) :
    ∃ n read unread events,
      s.Folds s.terminal.input read unread n events ∧
      n ≤ s.terminal.input.length + 1 ∧
      (s.say "Welcome to vos").Ends n s.run ∧
      s.run = { s.after read with
        terminal := ⟨unread, s.terminal.events ++ .line "Welcome to vos" :: events⟩ } := by
  obtain ⟨n, read, unread, events, hfolds, hn, hends, hsteps⟩ :=
    steps_folds s s.terminal.input (s.terminal.events ++ [.line "Welcome to vos"])
  rw [List.append_assoc] at hends hsteps
  refine ⟨n, read, unread, events, hfolds, hn, ?_, hsteps⟩
  have hrun : s.run = _ := hsteps
  rw [hrun]
  exact hends

/-- A session with seven lines waiting, and two marks in its prompt. -/
def tour : Session Store.Tree where
  store := .empty
  terminal := .ofInput ["mkdir d", "cd d", "cat nope", " \t", "echo hi > f", "exit", "pwd"]
  cwd := "/"
  commands := Image.canonical.commands
  prompt := "\x7bcwd\x7d\x7b\x7bcwd\x7d> "

/-- What it records behind the welcome. -/
def tourEvents : List Event :=
  [.prompt "/\x7b/> ", .line "Directory created: //d", .inputCleared,
    .prompt "/\x7b/> ", .line "Current directory: /d", .inputCleared,
    .prompt "/d\x7b/d> ", .error "Error in shell: not found: /d/nope",
    .prompt "/d\x7b/d> ",
    .prompt "/d\x7b/d> ", .line "Output written to /d/f", .inputCleared,
    .prompt "/d\x7b/d> ", .line "Exiting shell"]

/-- The session with two lines waiting, neither of which ends it. -/
def tourOpen : Session Store.Tree := { tour with terminal := .ofInput ["cd \\", "\u00a0"] }

def tourOpenEvents : List Event :=
  [.prompt "/\x7b/> ", .line "Current directory: /\\", .inputCleared,
    .prompt "/\\\x7b/\\> ",
    .prompt "/\\\x7b/\\> "]

/-- A directory that is made and entered, a line that fails, a blank one, one with a file, and the
end before the last line. Where no line ends the session, it ends behind one prompt more than lines. -/
theorem run_folds_tour :
    (tour.Folds tour.terminal.input
        ["mkdir d", "cd d", "cat nope", " \t", "echo hi > f", "exit"] ["pwd"] 6 tourEvents ∧
      (tour.say "Welcome to vos").Ends 6 tour.run ∧
      tour.run.terminal = ⟨["pwd"], .line "Welcome to vos" :: tourEvents⟩ ∧
      tour.run.cwd = "/d" ∧
      tour.run.store.entries = [("/", .dir), ("/d", .dir), ("/d/f", .file "hi")]) ∧
    (tourOpen.Folds tourOpen.terminal.input ["cd \\", "\u00a0"] [] 3 tourOpenEvents ∧
      (tourOpen.say "Welcome to vos").Ends 3 tourOpen.run ∧
      tourOpen.run.terminal = ⟨[], .line "Welcome to vos" :: tourOpenEvents⟩ ∧
      tourOpen.run.cwd = "/\\") := by
  constructor
  · obtain ⟨n, read, unread, events, hfolds, -, hends, hrun⟩ := run_folds tour
    have hterminal : tour.run.terminal = ⟨["pwd"], .line "Welcome to vos" :: tourEvents⟩ := rfl
    have hbehind : tour.run.terminal = ⟨unread, .line "Welcome to vos" :: events⟩ :=
      congrArg (·.terminal) hrun
    obtain ⟨rfl, hevents⟩ := Terminal.mk.inj (hbehind.symm.trans hterminal)
    obtain ⟨-, rfl⟩ := List.cons.inj hevents
    obtain rfl : read = ["mkdir d", "cd d", "cat nope", " \t", "echo hi > f", "exit"] :=
      List.append_cancel_right hfolds.order.symm
    obtain rfl : n = 6 := by
      rcases hfolds.ended with ⟨-, hn, -⟩ | ⟨-, hunread, -⟩
      · exact hn
      · cases hunread
    exact ⟨hfolds, hends, hterminal, rfl, rfl⟩
  · obtain ⟨n, read, unread, events, hfolds, -, hends, hrun⟩ := run_folds tourOpen
    have hterminal : tourOpen.run.terminal = ⟨[], .line "Welcome to vos" :: tourOpenEvents⟩ := rfl
    have hbehind : tourOpen.run.terminal = ⟨unread, .line "Welcome to vos" :: events⟩ :=
      congrArg (·.terminal) hrun
    obtain ⟨rfl, hevents⟩ := Terminal.mk.inj (hbehind.symm.trans hterminal)
    obtain ⟨-, rfl⟩ := List.cons.inj hevents
    obtain rfl : read = ["cd \\", "\u00a0"] := by
      rw [← List.append_nil read]
      exact hfolds.order.symm
    obtain rfl : n = 3 := by
      rcases hfolds.ended with ⟨⟨front, line, hread, hblank, -⟩, -⟩ | ⟨-, -, hn, -⟩
      · have hlast : ["cd \\"] ++ ["\u00a0"] = front ++ [line] := hread
        obtain ⟨-, hline⟩ := List.append_inj' hlast rfl
        obtain ⟨rfl, -⟩ := List.cons.inj hline
        cases hblank
      · exact hn
    exact ⟨hfolds, hends, hterminal, rfl⟩

end TreeShell.Session
