import TreeShell.Proofs.Session.Boot
import TreeShell.Proofs.Session.Fold

/-!
# A session with one line

A session that has one line waiting does what the line does, and then is asked for another.

* `start_carry`: a start does the same on a terminal that stands for another.
* `start_silent`, `processLine_silent`: **neither a start nor a line records a prompt.**
* `run_line`: **what a run comes to if one line is waiting**, by what the line does.
-/

namespace TreeShell

open Store (Backend)

variable {σ : Type} {g : Terminal → Terminal}

/-! ## Starts on other terminals -/

namespace Machine

/-- The machine with the terminal that stands for its own. -/
def carry (g : Terminal → Terminal) (m : Machine σ) : Machine σ :=
  { m with terminal := g m.terminal }

theorem say_carry (hg : Terminal.Stands g) (m : Machine σ) (text : String) :
    (m.carry g).say text = (m.say text).carry g := by
  have hrecord := hg m.terminal (.line text) rfl
  unfold say carry Terminal.writeLine
  rw [hrecord]

theorem warn_carry (hg : Terminal.Stands g) (m : Machine σ) (text : String) :
    (m.carry g).warn text = (m.warn text).carry g := by
  have hrecord := hg m.terminal (.error text) rfl
  unfold warn carry Terminal.writeError
  rw [hrecord]

end Machine

namespace Boot

variable [Backend σ]

theorem install_carry (hg : Terminal.Stands g) (b : Boot) (m : Machine σ) :
    b.install (m.carry g) = ((b.install m).1, (b.install m).2.carry g) := by
  have hstore : (m.carry g).store = m.store := rfl
  unfold install
  rw [hstore]
  cases Backend.has b.corePath m.store with
  | mk there store =>
    cases there with
    | true => exact congrArg (Prod.mk _) (Machine.say_carry hg { m with store } _)
    | false =>
      have hsay := Machine.say_carry hg { m with store } "Creating OS core..."
      have hm : { m.carry g with store } = Machine.carry g { m with store } := rfl
      simp only [hm, hsay]
      generalize { m with store }.say "Creating OS core..." = m
      have hstore : (m.carry g).store = m.store := rfl
      rw [hstore]
      cases Backend.write b.corePath Image.canonical.toJson m.store with
      | mk written store =>
        cases written with
        | ok _ => exact congrArg (Prod.mk _) (Machine.say_carry hg { m with store } _)
        | error f => exact congrArg (Prod.mk _) (Machine.warn_carry hg { m with store } _)

theorem load_carry (hg : Terminal.Stands g) (b : Boot) (m : Machine σ) :
    b.load (m.carry g) = ((b.load m).1, (b.load m).2.carry g) := by
  unfold load
  simp only [Machine.say_carry hg]
  generalize m.say "Loading OS core..." = m
  have hstore : (m.carry g).store = m.store := rfl
  rw [hstore]
  cases Backend.read b.corePath m.store with
  | mk text store => cases text <;> rfl

/-- **A start does the same on the other terminal.** -/
theorem start_carry (hg : Terminal.Stands g) (b : Boot) (m : Machine σ) :
    b.start (m.carry g) = ((b.start m).1.map (·.carry id g), (b.start m).2.carry g) := by
  unfold start
  rw [Machine.say_carry hg, install_carry hg]
  generalize b.install (m.say "Bootloader starting...") = r
  obtain ⟨status, m⟩ := r
  simp only [load_carry hg]
  generalize b.load m = r
  obtain ⟨answer, m⟩ := r
  cases answer with
  | ok image =>
    simp only [Machine.say_carry hg]
    rfl
  | error f => exact congrArg (Prod.mk none) (Machine.warn_carry hg m _)

end Boot

/-! ## Where prompts come from -/

/-- The terminal without the prompts in its record. -/
def Terminal.unprompted (t : Terminal) : Terminal :=
  { t with events := t.events.filter (! ·.isPrompt) }

theorem Terminal.unprompted_stands : Terminal.Stands Terminal.unprompted := by
  intro t e he
  have hkept : [e].filter (! ·.isPrompt) = [e] := List.filter_cons_of_pos (by rw [he]; rfl)
  unfold unprompted record
  rw [List.filter_append, hkept]

theorem Terminal.silent_of_unprompted {t : Terminal} (h : t.unprompted = t) :
    ∀ e ∈ t.events, e.isPrompt = false := by
  intro e he
  rw [← h] at he
  simpa using (List.mem_filter.mp he).2

variable [Backend σ]

/-- **A start records no prompt.** -/
theorem Boot.start_silent (b : Boot) (store : σ) (lines : List String) :
    ∀ e ∈ (b.start ⟨store, .ofInput lines⟩).2.terminal.events, e.isPrompt = false := by
  -- a record without prompts is its own likeness without prompts, before the start and after it
  have hcarry := b.start_carry Terminal.unprompted_stands ⟨store, .ofInput lines⟩
  have hsame : Machine.carry Terminal.unprompted ⟨store, .ofInput lines⟩ =
      (⟨store, .ofInput lines⟩ : Machine σ) := rfl
  rw [hsame] at hcarry
  exact Terminal.silent_of_unprompted (congrArg (·.2.terminal) hcarry).symm

namespace Session

/-- **A line records no prompt.** -/
theorem processLine_silent (s : Session σ) (raw : String) :
    ∀ e ∈ (s.alone.processLine raw).2.terminal.events, e.isPrompt = false := by
  have hcarry := processLine_carry id_stands Terminal.unprompted_stands s.alone raw
  have hsame : s.alone.carry id Terminal.unprompted = s.alone := rfl
  rw [hsame] at hcarry
  exact Terminal.silent_of_unprompted (congrArg (·.2.terminal) hcarry).symm

/-! ## The run -/

/-- The prompt for another line, unless the session has ended. -/
def lastPrompt (r : Reply (Session σ) LineStatus) : List Event :=
  match r.1 with
  | .ok .stop => []
  | _ => [.prompt r.2.promptText]

omit [Backend σ] in
theorem lastPrompt_of_ne {r : Reply (Session σ) LineStatus} (h : r.1 ≠ .ok .stop) :
    lastPrompt r = [.prompt r.2.promptText] := by
  obtain ⟨answer, s⟩ := r
  cases answer with
  | error f => rfl
  | ok status =>
    cases status with
    | proceed => rfl
    | stop => exact absurd rfl h

/-- A line read on its own is the last one exactly if its answer ends the session. -/
theorem stopsAt_line {s : Session σ} {line : String} (hblank : Text.allBlank line = false) :
    s.StopsAt [line] [] [] ↔ (s.alone.processLine line).1 = .ok .stop := by
  constructor
  · rintro ⟨last, heq, -, hstop⟩
    obtain ⟨rfl, -⟩ := List.cons.inj heq
    exact hstop
  · intro hstop
    exact ⟨line, rfl, hblank, hstop⟩

/-- **A run with one line waiting** does what the line does. Around what the line records stand the
welcome and the prompt before it, and behind it what closes the line and the prompt for another. -/
theorem run_line {s : Session σ} {line : String} (hinput : s.terminal.input = [line])
    (hblank : Text.allBlank line = false) :
    let r := s.alone.processLine line
    s.run = { r.2 with
      terminal := ⟨[], s.terminal.events ++ .line "Welcome to vos" :: .prompt s.promptText ::
        (r.2.terminal.events ++ closing r.1 ++ lastPrompt r)⟩ } := by
  intro r
  obtain ⟨n, read, unread, events, hfolds, -, -, hsteps⟩ :=
    steps_folds s s.terminal.input (s.terminal.events ++ [.line "Welcome to vos"])
  rw [List.append_assoc] at hsteps
  have hrun : s.run = _ := hsteps
  rw [hinput] at hfolds
  have hrecord : s.record [line] =
      .prompt s.promptText :: (r.2.terminal.events ++ closing r.1) := by
    simp only [record, lineRecord, hblank, List.append_nil, promptText_eq]
    rfl
  have hnext : s.after [line] = r.2.alone := by
    have hline : s.next line = r.2.alone := if_neg (by rw [hblank]; exact Bool.false_ne_true)
    rw [after_cons, hline]
    rfl
  -- the line is read: without a line nothing ends the session, and something would be unread
  have hread : read = [line] ∧ unread = [] := by
    cases read with
    | nil =>
      rcases hfolds.ended with ⟨⟨front, last, heq, -⟩, -⟩ | ⟨-, hunread, -⟩
      · simp at heq
      · have horder := hfolds.order
        rw [hunread] at horder
        cases horder
    | cons first rest =>
      have horder := hfolds.order
      obtain ⟨rfl, hrest⟩ := List.cons.inj horder
      obtain ⟨rfl, rfl⟩ := List.append_eq_nil_iff.mp hrest.symm
      exact ⟨rfl, rfl⟩
  obtain ⟨rfl, rfl⟩ := hread
  have hevents : events = .prompt s.promptText ::
      (r.2.terminal.events ++ closing r.1 ++ lastPrompt r) := by
    rcases hfolds.ended with ⟨⟨front, hat⟩, -, hevents⟩ | ⟨hnone, -, -, hevents⟩
    · obtain ⟨last, heq, -⟩ := id hat
      obtain ⟨rfl, -⟩ := List.append_eq_singleton_iff.mp heq.symm |>.resolve_right (by simp)
      have hstop : r.1 = .ok .stop := (stopsAt_line hblank).mp hat
      rw [hevents, hrecord, lastPrompt, hstop, List.append_nil]
    · have hne : r.1 ≠ .ok .stop := fun hstop => hnone [] [] ((stopsAt_line hblank).mpr hstop)
      have hprompt : r.2.alone.rendered = r.2.promptText := (promptText_eq r.2).symm
      rw [hevents, hrecord, hnext, lastPrompt_of_ne hne, hprompt]
      rfl
  rw [hrun, hnext, hevents]
  rfl

end Session

end TreeShell
