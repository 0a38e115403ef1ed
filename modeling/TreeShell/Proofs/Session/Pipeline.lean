import TreeShell.Proofs.Command.Grammar
import TreeShell.Proofs.Session.Acts

/-!
# What a pipeline gives

A command gives a text, ends the session, or fails. A pipeline goes on behind a text, and is cut
short by the other two: what stands behind is never looked at.

* `Texts`: an answer that is a text, if it is one at all.
* `execute_gives`, `runSegments_gives`: a command gives a text unless it is an enabled `exit`, and so
  does a pipeline.
* `runSegments_append`: a pipeline that is cut short is not continued.
* `runLine_cut`, `runLine_done`: a line by the end of its pipeline.
* `processLine_cut_short`: **nothing behind the cut has any effect**, be it more of the pipeline or a
  redirection.
-/

namespace TreeShell.Session

open Command (Builtin CommandLine Segment unknownCommand)
open Store (Backend Tree)

variable {σ α : Type}

/-! ## Commands -/

/-- An answer that is a text, if it is one at all. -/
def Texts (r : Reply (Session σ) Outcome) : Prop := ∀ outcome, r.1 = .ok outcome → ∃ text, outcome = .text text

theorem output_texts (s : Session σ) (text : String) : Texts (s.output text) := by
  intro outcome h
  exact ⟨text, (Except.ok.inj h).symm⟩

theorem Texts.andThen {r : Reply (Session σ) α} {next : α → Session σ → Reply (Session σ) Outcome}
    (hn : ∀ a s, Texts (next a s)) : Texts (andThen r next) := by
  intro outcome h
  obtain ⟨a, s, -, hnext⟩ := andThen_ok h
  exact hn a s outcome hnext

theorem grep_texts (s : Session σ) (pattern : Option String) (piped : String) :
    Texts (s.grep pattern piped) := by
  rcases grep_cases s pattern piped with ⟨text, h⟩ | ⟨warning, h⟩
  · rw [h]
    exact output_texts s text
  · rw [h]
    exact output_texts (s.warn warning) ""

theorem help_texts (s : Session σ) (name : Option String) : Texts (s.help name) := by
  obtain ⟨text, h⟩ := help_output s name
  rw [h]
  exact output_texts s text

theorem change_texts (s : Session σ) (path report : String)
    (request : String → σ → Except Store.Fault Unit × σ) : Texts (s.change path report request) :=
  .andThen fun _ s => output_texts s _

variable [Backend σ] {s s' : Session σ} {name : String} {args : List String} {piped : String}
  {last outcome : Outcome} {segments : List (Option Segment)} {line line' : CommandLine}

/-- **A built-in command gives a text**, unless it is `exit`. -/
theorem runBuiltin_texts {b : Builtin} (hb : b ≠ .exit) (s : Session σ) (args : List String)
    (piped : String) : Texts (s.runBuiltin b args piped) := by
  cases b with
  | ls | cat => exact .andThen fun _ s => output_texts s _
  | cp => exact .andThen fun _ _ => .andThen fun _ s => output_texts s _
  | mv => exact .andThen fun _ _ => .andThen fun _ _ => .andThen fun _ s => output_texts s _
  | mkdir | rmdir | rm | touch => exact change_texts s _ _ _
  | grep => exact grep_texts s _ _
  | help => exact help_texts s _
  | exit => exact absurd rfl hb
  | clear | cd | echo | pwd => exact output_texts _ _

/-- **A command gives a text**, or is an enabled `exit`. -/
theorem execute_gives (h : (s.execute name args piped).1 = .ok outcome) :
    (∃ text, outcome = .text text) ∨ outcome = .terminate ∧ "exit" ∈ s.commands := by
  obtain ⟨b, rfl, hname, hrun⟩ | hrun := execute_cases s name args piped
  · rw [hrun] at h
    by_cases hexit : b = .exit
    · subst hexit
      exact .inr ⟨(Except.ok.inj h).symm, hname⟩
    · exact .inl (runBuiltin_texts hexit s args piped outcome h)
  · rw [hrun] at h
    exact .inl (output_texts s _ outcome h)

/-! ## Pipelines -/

theorem runSegment_gives {segment : Option Segment}
    (h : (s.runSegment segment piped).1 = .ok outcome) :
    (∃ text, outcome = .text text) ∨ outcome = .terminate ∧ "exit" ∈ s.commands := by
  cases segment with
  | none =>
    have hcommand : (s.execute "" [] piped).1 = .ok outcome := h
    exact execute_gives hcommand
  | some g =>
    have hcommand : (s.execute g.name g.args piped).1 = .ok outcome := h
    exact execute_gives hcommand

/-- **A pipeline gives a text**, or has come to an enabled `exit`. Without a segment it gives what
came before it. -/
theorem runSegments_gives (h : (s.runSegments last segments).1 = .ok outcome) :
    (segments = [] ∧ outcome = last) ∨ (∃ text, outcome = .text text) ∨
      outcome = .terminate ∧ "exit" ∈ s.commands := by
  induction segments generalizing s last with
  | nil => exact .inl ⟨rfl, (Except.ok.inj h).symm⟩
  | cons segment segments ih =>
    right
    rcases cutShort_or (s.runSegment segment last.piped) with hcut | ⟨first, s', hfirst, hgo⟩
    · rw [runSegments_cut hcut] at h
      exact runSegment_gives h
    · have hfixed := s.runSegment_commands segment last.piped
      rw [runSegments_next hfirst hgo] at h
      rw [hfirst] at hfixed
      rcases ih h with ⟨-, rfl⟩ | htext | ⟨hend, hexit⟩
      · -- behind the last segment, the outcome is what that segment has given
        exact runSegment_gives (congrArg Prod.fst hfirst)
      · exact .inl htext
      · rw [← hfixed]
        exact .inr ⟨hend, hexit⟩

/-- **A pipeline that is cut short is not continued.** By induction on its segments: it is cut short
by the first of them, or behind it. -/
theorem runSegments_append (hlast : last ≠ .terminate) (h : CutShort (s.runSegments last segments))
    (more : List (Option Segment)) :
    s.runSegments last (segments ++ more) = s.runSegments last segments := by
  induction segments generalizing s last with
  | nil => exact absurd (h last rfl) hlast
  | cons segment segments ih =>
    rw [List.cons_append]
    rcases cutShort_or (s.runSegment segment last.piped) with hcut | ⟨first, s', hfirst, hgo⟩
    · rw [runSegments_cut hcut, runSegments_cut hcut]
    · rw [runSegments_next hfirst hgo] at h ⊢
      rw [runSegments_next hfirst hgo]
      exact ih hgo h

/-! ## Lines -/

theorem processLine_parsed {raw : String} (h : CommandLine.parse raw = .ok line) :
    s.processLine raw = s.runLine line := by
  unfold processLine
  rw [h]

/-- A line whose pipeline is cut short fails with it, or ends the session. -/
theorem runLine_cut (h : CutShort (s.runSegments .noValue line.segments)) :
    s.runLine line = andThen (s.runSegments .noValue line.segments) fun _ s => (.ok .stop, s) := by
  unfold runLine
  generalize s.runSegments .noValue line.segments = r at h ⊢
  obtain ⟨answer, s'⟩ := r
  cases answer with
  | error f => rfl
  | ok outcome =>
    obtain rfl := h outcome rfl
    rfl

/-- A line whose pipeline is not cut short delivers what that gives. -/
theorem runLine_done (h : s.runSegments .noValue line.segments = (.ok outcome, s'))
    (hgo : outcome ≠ .terminate) :
    s.runLine line = s'.deliver (line.redirect.map fun t => s.locate (some t)) outcome := by
  unfold runLine
  rw [h]
  cases outcome with
  | terminate => exact absurd rfl hgo
  | text output => rfl
  | noValue => rfl

theorem deliver_plain (s : Session σ) (outcome : Outcome) :
    (s.deliver none outcome).1 = .ok .proceed := by
  cases outcome <;> rfl

/-- A pipeline is cut short if its line, without a redirection, fails or ends the session. -/
theorem cutShort_of_runLine (hplain : line.redirect = none)
    (h : (s.runLine line).1 ≠ .ok .proceed) : CutShort (s.runSegments .noValue line.segments) := by
  rcases cutShort_or (s.runSegments .noValue line.segments) with hcut | ⟨outcome, s', hdone, hgo⟩
  · exact hcut
  · rw [runLine_done hdone hgo, hplain] at h
    exact absurd (deliver_plain s' outcome) h

/-- A line whose pipeline starts with one that is cut short comes to the same as that. -/
theorem runLine_append (h : CutShort (s.runSegments .noValue line.segments))
    {more : List (Option Segment)} (hsegments : line'.segments = line.segments ++ more) :
    s.runLine line' = s.runLine line := by
  have hlast : Outcome.noValue ≠ .terminate := by simp
  have hsame : s.runSegments .noValue line'.segments = s.runSegments .noValue line.segments := by
    rw [hsegments, runSegments_append hlast h]
  have hcut : CutShort (s.runSegments .noValue line'.segments) := by rwa [hsame]
  rw [runLine_cut h, runLine_cut hcut, hsame]

/-- **Nothing behind the cut has any effect.** A line that fails or ends the session comes to the
same, in its answer, its store, its directory and its record, with any further pipeline and any
redirection behind it. So nothing is ever written at the target of that. -/
theorem processLine_cut_short {a q target : String} (ha : '>' ∉ a.toList) (hq : '>' ∉ q.toList)
    (htarget : Text.trim target ≠ "")
    (hcut : (s.processLine a).1 = .ok .stop ∨ ∃ f, (s.processLine a).1 = .error f) :
    s.processLine (a ++ "|" ++ q) = s.processLine a ∧
      s.processLine (a ++ ">" ++ target) = s.processLine a ∧
      s.processLine (a ++ "|" ++ q ++ ">" ++ target) = s.processLine a := by
  have hbar : '>' ∉ (a ++ "|" ++ q).toList := by
    rw [String.toList_append, String.toList_append, List.mem_append, List.mem_append]
    exact not_or.2 ⟨not_or.2 ⟨ha, by decide⟩, hq⟩
  have hsegments : CommandLine.segmentsOf (a ++ "|" ++ q).toList =
      CommandLine.segmentsOf a.toList ++ CommandLine.segmentsOf q.toList := by
    rw [← Command.segmentsOf_append]
    simp
  have hplain := processLine_parsed (s := s) (CommandLine.parse_plain ha)
  have hpipeline : CutShort (s.runSegments .noValue (CommandLine.segmentsOf a.toList)) := by
    let line : CommandLine := ⟨none, CommandLine.segmentsOf a.toList⟩
    suffices h : (s.runLine line).1 ≠ .ok .proceed from cutShort_of_runLine rfl h
    rw [← hplain]
    rcases hcut with hstop | ⟨f, hf⟩
    · rw [hstop]
      simp
    · rw [hf]
      simp
  rw [processLine_parsed (CommandLine.parse_plain hbar),
    processLine_parsed (CommandLine.parse_redirect ha htarget),
    processLine_parsed (CommandLine.parse_redirect hbar htarget), hplain]
  refine ⟨runLine_append hpipeline hsegments, ?_, runLine_append hpipeline hsegments⟩
  exact runLine_append hpipeline (List.append_nil _).symm

/-- A session of the canonical image on an empty tree. -/
def fresh : Session Tree :=
  (Machine.mk Tree.empty (.ofInput [])).session Image.canonical.commands defaultPrompt

/-- Cut short by a failure behind a command that has done something, and by the end of the session. -/
theorem processLine_cut_short_midway :
    let failing := "touch a | cat b"
    let ending := " | echo c | exit "
    ((fresh.processLine failing).1 = .error (.store (.notFound "/b")) ∧
      fresh.processLine (failing ++ "|" ++ "touch c | exit" ++ ">" ++ " d > e") =
        fresh.processLine failing ∧
      (fresh.processLine failing).2.store.entries = [("/", .dir), ("/a", .file "")]) ∧
    (fresh.processLine ending).1 = .ok .stop ∧
      fresh.processLine (ending ++ ">" ++ " d") = fresh.processLine ending ∧
      (fresh.processLine ending).2.terminal.lines = ["Exiting shell"] := by
  have hfailing : (fresh.processLine "touch a | cat b").1 = .error (.store (.notFound "/b")) := rfl
  have hending : (fresh.processLine " | echo c | exit ").1 = .ok .stop := rfl
  refine ⟨⟨hfailing, ?_, rfl⟩, hending, ?_, rfl⟩
  · exact (processLine_cut_short (by decide) (by decide) (by decide) (.inr ⟨_, hfailing⟩)).2.2
  · exact (processLine_cut_short (q := "") (by decide) (by decide) (by decide) (.inl hending)).2.1

end TreeShell.Session
