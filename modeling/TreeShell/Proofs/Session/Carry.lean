import TreeShell.Session.Loop

/-!
# A session looks into neither its store nor its terminal

Of its store a session only uses the answers to its requests, and of its terminal that something can
be recorded on it, which for a line is never a prompt. So what a session does, it also does on a
store and a terminal that stand for its own.

* `Store.Stands`: in a request one store can take the place of another.
* `carry`: a session on the store and the terminal that stand for its own. `carried`: its answer.
* `runBuiltin_carry`, `execute_carry`, `runSegments_carry`: **a command and a pipeline do the same
  there.**
* `processLine_carry`: **so does a line**, and so does a step on the same terminal (`step_carry`).
-/

namespace TreeShell

open Command (Builtin CommandLine Segment)
open Store (Backend)

variable {σ τ α β : Type}

/-- In every request the store `f t` answers as `t` does, and goes on standing for it. -/
structure Store.Stands [Backend σ] [Backend τ] (f : σ → τ) : Prop where
  list : ∀ p t, Backend.list p (f t) = (Backend.list p t).map id f
  read : ∀ p t, Backend.read p (f t) = (Backend.read p t).map id f
  write : ∀ p c t, Backend.write p c (f t) = (Backend.write p c t).map id f
  createFile : ∀ p c t, Backend.createFile p c (f t) = (Backend.createFile p c t).map id f
  createDirectory : ∀ p t, Backend.createDirectory p (f t) = (Backend.createDirectory p t).map id f
  deleteFile : ∀ p t, Backend.deleteFile p (f t) = (Backend.deleteFile p t).map id f
  deleteDirectory : ∀ p t, Backend.deleteDirectory p (f t) = (Backend.deleteDirectory p t).map id f

/-- Whether an event is a prompt. -/
def Event.isPrompt : Event → Bool
  | .prompt _ => true
  | _ => false

/-- What is recorded on the terminal that stands for another is recorded on both. Of prompts nothing
is asked. -/
def Terminal.Stands (g : Terminal → Terminal) : Prop :=
  ∀ t e, e.isPrompt = false → (g t).record e = g (t.record e)

namespace Session

/-- The session on the store and the terminal that stand for its own. -/
def carry (f : σ → τ) (g : Terminal → Terminal) (s : Session σ) : Session τ where
  store := f s.store
  terminal := g s.terminal
  cwd := s.cwd
  commands := s.commands
  prompt := s.prompt

/-- An answer, with the session after it carried over. -/
def carried (f : σ → τ) (g : Terminal → Terminal) (r : Reply (Session σ) α) : Reply (Session τ) α :=
  (r.1, r.2.carry f g)

variable {f : σ → τ} {g : Terminal → Terminal} {r : Reply (Session σ) α}
  {next : α → Session σ → Reply (Session σ) β} {next' : α → Session τ → Reply (Session τ) β}

theorem record_carry (hg : Terminal.Stands g) (s : Session σ) {e : Event}
    (he : e.isPrompt = false) :
    { s.carry f g with terminal := (s.carry f g).terminal.record e } =
      { s with terminal := s.terminal.record e }.carry f g := by
  unfold carry
  rw [hg s.terminal e he]

theorem say_carry (hg : Terminal.Stands g) (s : Session σ) (text : String) :
    (s.carry f g).say text = (s.say text).carry f g := record_carry hg s (e := .line text) rfl

theorem warn_carry (hg : Terminal.Stands g) (s : Session σ) (text : String) :
    (s.carry f g).warn text = (s.warn text).carry f g := record_carry hg s (e := .error text) rfl

theorem andThen_carry (hn : ∀ a s, next' a (s.carry f g) = carried f g (next a s)) :
    andThen (carried f g r) next' = carried f g (andThen r next) := by
  obtain ⟨answer, s⟩ := r
  cases answer with
  | error fault => rfl
  | ok a => exact hn a s

theorem ask_carry {request : σ → Except Store.Fault α × σ} {request' : τ → Except Store.Fault α × τ}
    (hrequest : ∀ t, request' (f t) = (request t).map id f) (s : Session σ) :
    (s.carry f g).ask request' = carried f g (s.ask request) := by
  have hs : request' (s.carry f g).store = (request s.store).map id f := hrequest s.store
  unfold ask
  rw [hs]
  rfl

/-- A request, and what follows it. -/
theorem ask_andThen_carry {request : σ → Except Store.Fault α × σ}
    {request' : τ → Except Store.Fault α × τ}
    (hrequest : ∀ t, request' (f t) = (request t).map id f)
    (hn : ∀ a s, next' a (s.carry f g) = carried f g (next a s)) (s : Session σ) :
    andThen ((s.carry f g).ask request') next' = carried f g (andThen (s.ask request) next) := by
  rw [ask_carry hrequest]
  exact andThen_carry hn

/-! ## Commands -/

theorem changeDir_carry (hg : Terminal.Stands g) (s : Session σ) (target : Option String) :
    (s.carry f g).changeDir target = carried f g (s.changeDir target) := by
  have hs := say_carry (f := f) hg { s with cwd := WorkDir.move s.cwd target }
    ("Current directory: " ++ WorkDir.move s.cwd target)
  exact congrArg (output · "") hs

theorem grep_carry (hg : Terminal.Stands g) (s : Session σ) (pattern : Option String)
    (piped : String) : (s.carry f g).grep pattern piped = carried f g (s.grep pattern piped) := by
  unfold grep
  split
  · exact congrArg (output · "") (warn_carry hg s _)
  · rfl

theorem help_carry (s : Session σ) (name : Option String) :
    (s.carry f g).help name = carried f g (s.help name) := by
  unfold help
  split
  · rfl
  · split <;> rfl

variable [Backend σ] [Backend τ]

/-- **A built-in command does the same on the other store and terminal.** -/
theorem runBuiltin_carry (hf : Store.Stands f) (hg : Terminal.Stands g) (s : Session σ) (b : Builtin)
    (args : List String) (piped : String) :
    (s.carry f g).runBuiltin b args piped = carried f g (s.runBuiltin b args piped) := by
  have hchange : ∀ path report (request : String → σ → Except Store.Fault Unit × σ)
      (request' : String → τ → Except Store.Fault Unit × τ),
      (∀ t, request' path (f t) = (request path t).map id f) →
        (s.carry f g).change path report request' = carried f g (s.change path report request) :=
    fun _ _ _ _ h => ask_andThen_carry h (fun _ _ => rfl) s
  cases b with
  | ls => exact ask_andThen_carry (hf.list _) (fun _ _ => rfl) s
  | cat => exact ask_andThen_carry (hf.read _) (fun _ _ => rfl) s
  | help => exact help_carry s _
  | exit => exact congrArg (Prod.mk _) (say_carry hg s _)
  | clear => exact congrArg (Prod.mk _) (record_carry hg s (e := .screenCleared) rfl)
  | cd => exact changeDir_carry hg s _
  | echo => rfl
  | mkdir => exact hchange _ _ Backend.createDirectory _ (hf.createDirectory _)
  | rmdir => exact hchange _ _ Backend.deleteDirectory _ (hf.deleteDirectory _)
  | rm => exact hchange _ _ Backend.deleteFile _ (hf.deleteFile _)
  | touch => exact hchange _ _ (Backend.createFile · "") (Backend.createFile · "") (hf.createFile _ "")
  | cp =>
    refine ask_andThen_carry (hf.read _) (fun text s => ?_) s
    exact ask_andThen_carry (hf.write _ text) (fun _ _ => rfl) s
  | mv =>
    refine ask_andThen_carry (hf.read _) (fun text s => ?_) s
    refine ask_andThen_carry (hf.write _ text) (fun _ s => ?_) s
    exact ask_andThen_carry (hf.deleteFile _) (fun _ _ => rfl) s
  | pwd => rfl
  | grep => exact grep_carry hg s _ _

theorem execute_carry (hf : Store.Stands f) (hg : Terminal.Stands g) (s : Session σ) (name : String)
    (args : List String) (piped : String) :
    (s.carry f g).execute name args piped = carried f g (s.execute name args piped) := by
  show (if s.isEnabled name then _ else _) = _
  unfold execute
  split
  · split
    · exact runBuiltin_carry hf hg s _ args piped
    · rfl
  · rfl

/-! ## Lines -/

theorem runSegment_carry (hf : Store.Stands f) (hg : Terminal.Stands g) (s : Session σ)
    (segment : Option Segment) (piped : String) :
    (s.carry f g).runSegment segment piped = carried f g (s.runSegment segment piped) := by
  cases segment with
  | none => exact execute_carry hf hg s "" [] piped
  | some segment => exact execute_carry hf hg s segment.name segment.args piped

theorem runSegments_carry (hf : Store.Stands f) (hg : Terminal.Stands g) (s : Session σ)
    (last : Outcome) (segments : List (Option Segment)) :
    (s.carry f g).runSegments last segments = carried f g (s.runSegments last segments) := by
  induction segments generalizing s last with
  | nil => rfl
  | cons segment segments ih =>
    unfold runSegments
    rw [runSegment_carry hf hg]
    refine andThen_carry fun outcome s => ?_
    cases outcome with
    | terminate => rfl
    | text output => exact ih s (.text output)
    | noValue => exact ih s .noValue

theorem deliver_carry (hf : Store.Stands f) (hg : Terminal.Stands g) (s : Session σ)
    (target : Option String) (last : Outcome) :
    (s.carry f g).deliver target last = carried f g (s.deliver target last) := by
  unfold deliver
  split
  · refine ask_andThen_carry (hf.write _ _) (fun _ s => ?_) s
    exact congrArg (Prod.mk _) (say_carry hg s _)
  · exact congrArg (Prod.mk _) (say_carry hg s _)
  · split
    · rfl
    · exact congrArg (Prod.mk _) (say_carry hg s _)
  · rfl

/-- **A line does the same on the other store and terminal.** -/
theorem processLine_carry (hf : Store.Stands f) (hg : Terminal.Stands g) (s : Session σ)
    (raw : String) : (s.carry f g).processLine raw = carried f g (s.processLine raw) := by
  unfold processLine
  split
  · exact congrArg (Prod.mk _) (warn_carry hg s _)
  · rename_i line hparse
    have hlocate : (s.carry f g).locate = s.locate := rfl
    unfold runLine
    rw [runSegments_carry hf hg, hlocate]
    refine andThen_carry fun last s => ?_
    cases last with
    | terminate => rfl
    | text output => exact deliver_carry hf hg s _ (.text output)
    | noValue => exact deliver_carry hf hg s _ .noValue

/-- A step on the same terminal. -/
theorem step_carry (hf : Store.Stands f) (s : Session σ) :
    (s.carry f id).step = carried f id s.step := by
  have hid : Terminal.Stands id := fun _ _ _ => rfl
  have hread : (s.carry f id).terminal.readLine (s.carry f id).promptText =
      s.terminal.readLine s.promptText := rfl
  unfold step
  rw [hread]
  obtain ⟨line, terminal⟩ := s.terminal.readLine s.promptText
  cases line with
  | none => rfl
  | some raw =>
    have hline : ({ s.carry f id with terminal } : Session τ).processLine raw =
        carried f id ({ s with terminal }.processLine raw) :=
      processLine_carry hf hid { s with terminal } raw
    simp only
    split
    · rfl
    · rw [hline]
      refine andThen_carry fun status s => ?_
      cases status with
      | proceed => rfl
      | stop => rfl

end Session

end TreeShell
