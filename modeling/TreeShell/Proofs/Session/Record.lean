import TreeShell.Proofs.Session.Carry

/-!
# A line adds to the record and reads nothing of the terminal

Of its terminal a session only uses that something can be recorded on it. `onto` puts a session on
another terminal, behind the record that is there and with the lines that wait there.

* `processLine_onto`: **on another terminal a line does the same.** Its answer, the store and the
  working directory after it do not depend on the terminal, no line is taken from those that wait,
  and what it records comes behind what was recorded before.
* `processLine_alone`: what a line does, read off a session on a terminal of its own.
-/

namespace TreeShell.Session

open Store (Backend)

variable {σ α : Type}

/-- The session on the terminal `t`, where its own record comes behind the one that is there. -/
def onto (s : Session σ) (t : Terminal) : Session σ :=
  { s with terminal := { input := t.input, events := t.events ++ s.terminal.events } }

/-- The session on a terminal of its own. -/
def alone (s : Session σ) : Session σ := { s with terminal := .ofInput [] }

theorem alone_onto (s : Session σ) : s.alone.onto s.terminal = s := by
  unfold alone onto Terminal.ofInput
  rw [List.append_nil]

/-- The answer with the session after it put on the terminal `t`. -/
def answerOnto (r : Reply (Session σ) α) (t : Terminal) : Reply (Session σ) α := (r.1, r.2.onto t)

/-- A terminal that continues the record of `t`. -/
def behind (t : Terminal) (u : Terminal) : Terminal :=
  { input := t.input, events := t.events ++ u.events }

theorem behind_stands (t : Terminal) : Terminal.Stands (behind t) := by
  intro u e _
  unfold behind Terminal.record
  rw [List.append_assoc]

variable [Backend σ]

theorem id_stands : Store.Stands (id : σ → σ) :=
  ⟨fun _ _ => rfl, fun _ _ => rfl, fun _ _ _ => rfl, fun _ _ _ => rfl, fun _ _ => rfl,
    fun _ _ => rfl, fun _ _ => rfl⟩

/-- **A line does the same on another terminal.** -/
theorem processLine_onto (s : Session σ) (t : Terminal) (raw : String) :
    (s.onto t).processLine raw = answerOnto (s.processLine raw) t :=
  processLine_carry id_stands (behind_stands t) s raw

/-- What a line does, read off the session on a terminal of its own. -/
theorem processLine_alone (s : Session σ) (raw : String) :
    s.processLine raw = answerOnto (s.alone.processLine raw) s.terminal := by
  rw [← processLine_onto, alone_onto]

end TreeShell.Session
