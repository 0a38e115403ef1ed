import TreeShell.Proofs.Path.WorkDir
import TreeShell.Proofs.Session.Acts
import TreeShell.Proofs.Session.Carry

/-!
# The working directory of a session

A session starts in the root directory, and `cd` leads to tidy directories only. So every path a
command makes of an argument starts at the root. Which paths are handed to a store cannot be seen
from its answers, hence the store is put inside one that notes its requests.

* `Store.Noting`: a store that notes its requests, and otherwise stands for the one inside.
* `Call`, `calls`: what is done with a session from outside, in any order.
* `execute_moved`, `runSegments_moved`: **only an enabled `cd` that is reached moves a session.**
* `Upright`: the invariant of a session on a noting store. Every call keeps it (`call_upright`).
* `calls_tidy`: **the directory is tidy after any calls, and every path handed over absolute.**
-/

namespace TreeShell

open Command (Builtin CommandLine Segment)
open Store (Backend Request)
open WorkDir (Absolute Tidy)

/-! ## Stores that note their requests -/

namespace Store

/-- A store, and the requests it was asked. -/
structure Noting (σ : Type) where
  inner : σ
  requests : List Request

variable {σ α : Type}

/-- Asks the store inside, and notes the request. -/
def Noting.note (n : Noting σ) (r : Request) (ask : σ → α × σ) : α × Noting σ :=
  let (a, s) := ask n.inner
  (a, { inner := s, requests := n.requests ++ [r] })

instance [Backend σ] : Backend (Noting σ) where
  has p n := n.note (.has p) (Backend.has p)
  list p n := n.note (.list p) (Backend.list p)
  read p n := n.note (.read p) (Backend.read p)
  write p c n := n.note (.write p c) (Backend.write p c)
  createFile p c n := n.note (.createFile p c) (Backend.createFile p c)
  createDirectory p n := n.note (.createDirectory p) (Backend.createDirectory p)
  deleteFile p n := n.note (.deleteFile p) (Backend.deleteFile p)
  deleteDirectory p n := n.note (.deleteDirectory p) (Backend.deleteDirectory p)

variable [Backend σ]

theorem inner_stands : Stands (Noting.inner : Noting σ → σ) :=
  ⟨fun _ _ => rfl, fun _ _ => rfl, fun _ _ _ => rfl, fun _ _ _ => rfl, fun _ _ => rfl,
    fun _ _ => rfl, fun _ _ => rfl⟩

theorem ask_requests (r : Request) (n : Noting σ) : (r.ask n).2.requests = n.requests ++ [r] := by
  cases r <;> rfl

end Store

open Store (Noting)

/-- The machine with a store that notes its requests from now on. -/
def Machine.noting {σ : Type} (m : Machine σ) : Machine (Noting σ) :=
  { store := { inner := m.store, requests := [] }, terminal := m.terminal }

namespace Session

variable {σ : Type}

/-- The session on the store inside one that notes its requests. -/
def plain (s : Session (Noting σ)) : Session σ := s.carry Noting.inner id

/-- Only `cd` moves. -/
theorem Executes.move {commands args : List String} {name : String} {s : Session σ}
    {t : Option String} (h : Executes commands name args s (.move t)) :
    name = "cd" ∧ "cd" ∈ commands := by
  obtain ⟨hname, b, hb, rfl, -⟩ := h
  have hcd := name_of_ofName? hb
  rw [← hcd] at hname ⊢
  exact ⟨rfl, hname⟩

/-- A built-in command asks for the paths of its arguments only. -/
theorem Asks.path {source target : String} {b : Builtin} {r : Request}
    (h : Asks source target b r) : r.path = source ∨ r.path = target := by
  cases b with
  | ls | cat | mkdir | rmdir | rm | touch =>
    obtain rfl := h
    exact .inl rfl
  | cp =>
    rcases h with rfl | ⟨text, rfl⟩
    · exact .inl rfl
    · exact .inr rfl
  | mv =>
    rcases h with rfl | ⟨text, rfl⟩ | rfl
    · exact .inl rfl
    · exact .inr rfl
    · exact .inl rfl
  | help | exit | clear | cd | echo | pwd | grep => exact h.elim

variable [Backend σ]

/-! ## Calls -/

/-- What is done with a session from outside. -/
inductive Call
  | execute (name : String) (args : List String) (piped : String)
  | line (raw : String)
  | step
  /-- A line comes in on the terminal. -/
  | feed (raw : String)

/-- The session after a call, also after one that fails. -/
def call (s : Session σ) : Call → Session σ
  | .execute name args piped => (s.execute name args piped).2
  | .line raw => (s.processLine raw).2
  | .step => s.step.2
  | .feed raw => { s with terminal := s.terminal.pushInput raw }

/-- The session after some calls. -/
def calls (s : Session σ) (cs : List Call) : Session σ := cs.foldl call s

/-- A line runs a command of that name: its pipeline comes to one, as those before it neither fail
nor end the session. -/
def LineRuns (s : Session σ) (raw name : String) : Prop :=
  ∃ line front g back outcome, CommandLine.parse raw = .ok line ∧
    line.segments = front ++ some g :: back ∧ g.name = name ∧
    (s.runSegments .noValue front).1 = .ok outcome ∧ outcome ≠ .terminate

/-- A call runs a command of that name. -/
def Runs (s : Session σ) (name : String) : Call → Prop
  | .execute n _ _ => n = name
  | .line raw => s.LineRuns raw name
  | .step => ∃ raw rest, s.terminal.input = raw :: rest ∧ (Act.take.done s).LineRuns raw name
  | .feed _ => False

variable {s s' : Session σ} {may : Session σ → Act → Prop} {commands : List String}
  {target : Option String} {name : String}

/-! ## Where a session moves -/

theorem Acts.cwd_eq (hmay : ∀ s t, ¬ may s (.move t)) (h : Acts may s s') : s'.cwd = s.cwd := by
  refine h.invariant (I := fun s' => s'.cwd = s.cwd) (fun s' a ha hs => ?_) rfl
  cases a with
  | ask r => exact hs
  | record e => exact hs
  | move t => exact absurd ha (hmay s' t)
  | take => exact hs

omit [Backend σ] in
theorem Ordered.move {t : Option String} (h : Ordered commands target s (.move t)) :
    "cd" ∈ commands := by
  cases h with
  | command h => exact h.move.2

theorem execute_moved {args : List String} {piped : String}
    (h : (s.execute name args piped).2.cwd ≠ s.cwd) : name = "cd" ∧ "cd" ∈ s.commands := by
  by_cases hcd : name = "cd" ∧ "cd" ∈ s.commands
  · exact hcd
  · have hstay := (execute_led s name args piped).acts.cwd_eq fun _ _ hmove => hcd hmove.move
    exact absurd hstay h

/-- **A pipeline that moves the session comes to an enabled `cd`.** By induction on the pipeline:
either its first command moves, or one of those that follow it. -/
theorem runSegments_moved {last : Outcome} {segments : List (Option Segment)}
    (hlast : last ≠ .terminate) (h : (s.runSegments last segments).2.cwd ≠ s.cwd) :
    "cd" ∈ s.commands ∧ ∃ front g back outcome, segments = front ++ some g :: back ∧ g.name = "cd" ∧
      (s.runSegments last front).1 = .ok outcome ∧ outcome ≠ .terminate := by
  induction segments generalizing s last with
  | nil => exact absurd rfl h
  | cons segment segments ih =>
    by_cases hfirst : (s.runSegment segment last.piped).2.cwd = s.cwd
    · rcases cutShort_or (s.runSegment segment last.piped) with hcut | ⟨outcome, s', hreply, hgo⟩
      · rw [runSegments_cut hcut] at h
        exact absurd hfirst h
      -- the first command has not moved the session, so the move is behind it
      · have hnext := runSegments_next hreply hgo
        have hfixed := s.runSegment_commands segment last.piped
        rw [hreply] at hfirst hfixed
        rw [hnext, ← hfirst] at h
        obtain ⟨hcd, front, g, back, last', rfl, hname, hfront, hlast'⟩ := ih hgo h
        rw [hfixed] at hcd
        refine ⟨hcd, segment :: front, g, back, last', rfl, hname, ?_, hlast'⟩
        rw [hnext]
        exact hfront
    · cases segment with
      | none =>
        have hmoved : (s.execute "" [] last.piped).2.cwd ≠ s.cwd := hfirst
        exact absurd (execute_moved hmoved).1 (by decide)
      | some g =>
        have hmoved : (s.execute g.name g.args last.piped).2.cwd ≠ s.cwd := hfirst
        obtain ⟨hname, hcd⟩ := execute_moved hmoved
        exact ⟨hcd, [], g, segments, last, rfl, hname, rfl, hlast⟩

/-- The output of a line is delivered where its pipeline has ended. -/
theorem runLine_cwd (s : Session σ) (line : CommandLine) :
    (s.runLine line).2.cwd = (s.runSegments .noValue line.segments).2.cwd := by
  unfold runLine
  obtain ⟨answer, s'⟩ := s.runSegments .noValue line.segments
  have hdeliver : ∀ target last, (s'.deliver target last).2.cwd = s'.cwd := by
    intro target last
    have hled : Led (Ordered [] target) s' (s'.deliver target last) := deliver_led s' target last
    exact hled.acts.cwd_eq fun _ _ hmove => absurd hmove.move List.not_mem_nil
  cases answer with
  | error f => rfl
  | ok last =>
    cases last with
    | terminate => rfl
    | text output => exact hdeliver _ _
    | noValue => exact hdeliver _ _

theorem processLine_moved {raw : String} (h : (s.processLine raw).2.cwd ≠ s.cwd) :
    "cd" ∈ s.commands ∧ s.LineRuns raw "cd" := by
  unfold processLine at h
  split at h
  · exact absurd rfl h
  · rename_i line hparse
    rw [runLine_cwd] at h
    have hlast : Outcome.noValue ≠ .terminate := by simp
    obtain ⟨hcd, front, g, back, outcome, hsplit, hname, hfront, hgo⟩ := runSegments_moved hlast h
    exact ⟨hcd, line, front, g, back, outcome, hparse, hsplit, hname, hfront, hgo⟩

omit [Backend σ] in
theorem settled_cwd (r : Reply (Session σ) LineStatus) : (andThen r settled).2.cwd = r.2.cwd := by
  obtain ⟨answer, s⟩ := r
  cases answer with
  | error f => rfl
  | ok status =>
    cases status with
    | proceed => rfl
    | stop => rfl

theorem step_moved (h : s.step.2.cwd ≠ s.cwd) : "cd" ∈ s.commands ∧ s.Runs "cd" .step := by
  cases hinput : s.terminal.input with
  | nil =>
    rw [step_closed hinput] at h
    exact absurd rfl h
  | cons raw rest =>
    rw [step_taken hinput] at h
    split at h
    · exact absurd rfl h
    · rw [settled_cwd] at h
      obtain ⟨hcd, hruns⟩ := processLine_moved (s := Act.take.done s) h
      exact ⟨hcd, raw, rest, hinput, hruns⟩

/-- **A call that moves the session runs an enabled `cd`.** -/
theorem call_moved {c : Call} (h : (s.call c).cwd ≠ s.cwd) : "cd" ∈ s.commands ∧ s.Runs "cd" c := by
  cases c with
  | execute name args piped => exact (execute_moved h).symm
  | line raw => exact processLine_moved h
  | step => exact step_moved h
  | feed raw => exact absurd rfl h

/-! ## What is handed to the store -/

/-- A call on the store inside. -/
theorem call_plain (s : Session (Noting σ)) (c : Call) : (s.call c).plain = s.plain.call c := by
  have hid : Terminal.Stands id := fun _ _ _ => rfl
  cases c with
  | execute name args piped =>
    exact congrArg Prod.snd (execute_carry Store.inner_stands hid s name args piped).symm
  | line raw => exact congrArg Prod.snd (processLine_carry Store.inner_stands hid s raw).symm
  | step => exact congrArg Prod.snd (step_carry Store.inner_stands s).symm
  | feed raw => rfl

/-- A session on a noting store in a tidy directory, which has handed absolute paths to it. -/
structure Upright (s : Session (Noting σ)) : Prop where
  cwd : Tidy s.cwd
  paths : ∀ r ∈ s.store.requests, Absolute r.path

variable {t t' : Session (Noting σ)}

omit [Backend σ] in
theorem target?_absolute {raw path : String} (hcwd : Absolute s.cwd)
    (h : s.target? raw = some path) : Absolute path := by
  unfold target? at h
  split at h
  · obtain ⟨typed, -, rfl⟩ := Option.map_eq_some_iff.1 h
    exact WorkDir.locate_absolute hcwd _
  · cases h

/-- **Every act of a session keeps it upright.** -/
theorem Upright.done {a : Act} (htarget : ∀ path, target = some path → Absolute path)
    (ha : Ordered commands target t a) (h : Upright t) : Upright (a.done t) := by
  have hasked : ∀ r : Request, Absolute r.path → Upright ((Act.ask r).done t) := by
    intro r hr
    refine ⟨h.cwd, fun r' hr' => ?_⟩
    have hrequests : ((Act.ask r).done t).store.requests = _ := Store.ask_requests r t.store
    rw [hrequests] at hr'
    rcases List.mem_append.1 hr' with hr' | hr'
    · exact h.paths r' hr'
    · rwa [List.mem_singleton.1 hr']
  cases a with
  | ask r =>
    cases ha with
    | command hcommand =>
      -- a command asks for paths located from the directory it runs in
      obtain ⟨-, b, -, hasks⟩ := hcommand
      apply hasked
      rcases hasks.path with hpath | hpath <;> rw [hpath]
      · exact WorkDir.locate_absolute h.cwd.absolute _
      · exact WorkDir.locate_absolute h.cwd.absolute _
    | deliver hpath text => exact hasked _ (htarget _ hpath)
  | record e => exact ⟨h.cwd, h.paths⟩
  | move target => exact ⟨WorkDir.tidy_spelled _, h.paths⟩
  | take => exact ⟨h.cwd, h.paths⟩

theorem Acts.upright (htarget : ∀ path, target = some path → Absolute path)
    (hacts : Acts (Ordered commands target) t t') (h : Upright t) : Upright t' :=
  hacts.invariant (fun _ _ ha h => h.done htarget ha) h

theorem call_upright (h : Upright t) (c : Call) : Upright (t.call c) := by
  have htarget : ∀ raw path, t.target? raw = some path → Absolute path :=
    fun raw path => target?_absolute h.cwd.absolute
  cases c with
  | execute name args piped =>
    have hacts : Acts (Ordered t.commands none) t (t.execute name args piped).2 :=
      (execute_led t name args piped).acts.mono fun _ _ => .command
    exact hacts.upright (by simp) h
  | line raw => exact (processLine_led t raw).acts.upright (htarget raw) h
  | step =>
    refine (step_acts t).upright (fun path hpath => ?_) h
    obtain ⟨raw, -, hraw⟩ := Option.bind_eq_some_iff.1 hpath
    exact htarget raw path hraw
  | feed raw => exact ⟨h.cwd, h.paths⟩

theorem calls_upright (h : Upright t) (cs : List Call) : Upright (t.calls cs) := by
  induction cs generalizing t with
  | nil => exact h
  | cons c cs ih => exact ih (call_upright h c)

theorem calls_plain (t : Session (Noting σ)) (cs : List Call) :
    (t.calls cs).plain = t.plain.calls cs := by
  induction cs generalizing t with
  | nil => rfl
  | cons c cs ih =>
    show ((t.call c).calls cs).plain = (t.plain.call c).calls cs
    rw [ih, call_plain]

theorem calls_commands (s : Session σ) (cs : List Call) : (s.calls cs).commands = s.commands := by
  induction cs generalizing s with
  | nil => rfl
  | cons c cs ih =>
    have hcall : (s.call c).commands = s.commands := by
      cases c with
      | execute name args piped => exact (execute_led s name args piped).acts.fixed.1
      | line raw => exact (processLine_led s raw).acts.fixed.1
      | step => exact (step_acts s).fixed.1
      | feed raw => rfl
    exact (ih (s.call c)).trans hcall

/-- **Wherever calls bring a session, also such that fail, its directory is tidy**; the next call
moves it only if it runs an enabled `cd`; and every path handed to the store is absolute. -/
theorem calls_tidy (m : Machine σ) (commands : List String) (prompt : String) (cs : List Call) :
    let s := (m.session commands prompt).calls cs
    let noting := (m.noting.session commands prompt).calls cs
    Tidy s.cwd ∧ (∀ c, (s.call c).cwd ≠ s.cwd → "cd" ∈ commands ∧ s.Runs "cd" c) ∧
      noting.plain = s ∧ ∀ r ∈ noting.store.requests, Absolute r.path := by
  intro s noting
  have hplain : noting.plain = s := calls_plain _ cs
  have hstart : Upright (m.noting.session commands prompt) :=
    ⟨WorkDir.root_tidy, fun r hr => absurd hr List.not_mem_nil⟩
  have hupright : Upright noting := calls_upright hstart cs
  have hcwd : Tidy s.cwd := by
    rw [← hplain]
    exact hupright.cwd
  have hcommands : s.commands = commands := calls_commands _ cs
  refine ⟨hcwd, fun c hmoved => ?_, hplain, hupright.paths⟩
  rw [← hcommands]
  exact call_moved hmoved

end Session

end TreeShell
