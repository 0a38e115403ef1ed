import TreeShell.Proofs.Session.Directory
import TreeShell.Proofs.Session.Pipeline
import TreeShell.Proofs.Session.Rename

/-!
# Redirected lines

A line with a redirection runs the pipeline that it would run without one. Only what becomes of the
last text differs: it is written to the target instead of being printed.

* `plain_cases`: a line without a redirection that goes on has come to a text.
* `deliver_to`: a text is written to its target, or that fails and nothing has happened.
* `cat_redirected`: what has been written is what `cat` gives, as a command and as a line.
* `redirect_stores`: **a redirection stores exactly the text the pipeline gives**, at the target as
  located before the pipeline runs.
-/

namespace TreeShell.Session

open Command (CommandLine Segment WordOK)
open TreeShell.Path Store

variable {s mid after : Session Tree} {a target path x piped : String} {tree : Tree}

/-- **A line without a redirection that goes on** has come to a text, and prints it unless it is
blank. -/
theorem plain_cases (ha : '>' ∉ a.toList) (h : (s.processLine a).1 = .ok .proceed) :
    ∃ x mid, s.runSegments .noValue (CommandLine.segmentsOf a.toList) = (.ok (.text x), mid) ∧
      s.processLine a = (.ok .proceed, if Text.allBlank x then mid else mid.say x) := by
  have hplain := processLine_parsed (s := s) (CommandLine.parse_plain ha)
  rw [hplain] at h ⊢
  rcases cutShort_or (s.runSegments .noValue (CommandLine.segmentsOf a.toList)) with
    hcut | ⟨outcome, mid, hdone, hgo⟩
  · -- a pipeline that is cut short does not let the session go on
    rw [runLine_cut hcut] at h
    obtain ⟨_, _, -, hstop⟩ := andThen_ok h
    cases hstop
  · rcases runSegments_gives (congrArg Prod.fst hdone) with ⟨hnil, -⟩ | ⟨x, rfl⟩ | ⟨hend, -⟩
    · exact absurd hnil (Command.segmentsOf_ne_nil _)
    · let line : CommandLine := ⟨none, CommandLine.segmentsOf a.toList⟩
      have hrun : s.runSegments .noValue line.segments = (.ok (.text x), mid) := hdone
      exact ⟨x, mid, hdone, runLine_done hrun hgo⟩
    · exact absurd hend hgo

/-- A text is written to its target, or that fails and nothing has happened. -/
theorem deliver_to (s : Session Tree) (path x : String) :
    s.deliver (some path) (.text x) =
      match s.store.write path x with
      | .ok tree => (.ok .proceed, (s.withTree tree).say ("Output written to " ++ path))
      | .error f => (.error (.store f), s) := by
  have hask : s.ask (Backend.write path x) = _ := ask_commit fun t => t.write path x
  unfold deliver
  simp only [hask]
  cases s.store.write path x <;> rfl

/-- What has been written is what `cat` gives, in the directory its path was located from. -/
theorem cat_written (hcat : "cat" ∈ after.commands)
    (hfile : after.store.read (after.locate (some target)) = .ok x) (piped : String) :
    after.execute "cat" [target] piped = (.ok (.text x), after) := by
  have hread : after.ask (Backend.read (after.locate (some target))) = (.ok x, after) := by
    rw [ask_read, hfile]
    rfl
  have hcommand : after.runBuiltin .cat [target] piped =
      andThen (after.ask (Backend.read (after.locate (some target)))) fun text s => s.output text := rfl
  have hexecute : after.execute "cat" [target] piped = after.runBuiltin .cat [target] piped :=
    execute_builtin .cat hcat [target] piped
  rw [hexecute, hcommand, hread]
  rfl

/-- A line with one command in it. -/
theorem processLine_command {name : String} {args : List String}
    (hwords : ∀ w ∈ name :: args, WordOK w) {s s' : Session Tree}
    (h : s.execute name args "" = (.ok (.text x), s')) :
    s.processLine (Segment.render ⟨name, args⟩) =
      (.ok .proceed, if Text.allBlank x then s' else s'.say x) := by
  let line : CommandLine := ⟨none, [some ⟨name, args⟩]⟩
  have hline : line.WellFormed := by
    refine ⟨List.cons_ne_nil _ _, ?_, fun t ht => by cases ht⟩
    intro segment hsegment g hg
    rw [List.mem_singleton.1 hsegment] at hg
    obtain rfl := Option.some.inj hg
    exact hwords
  have hrender : line.render = Segment.render ⟨name, args⟩ := rfl
  have hrun : s.runSegments .noValue line.segments = (.ok (.text x), s') := by
    have hfirst : s.runSegment (some ⟨name, args⟩) Outcome.noValue.piped = (.ok (.text x), s') := h
    rw [runSegments_next hfirst (by simp)]
    rfl
  rw [← hrender, processLine_parsed (CommandLine.parse_render hline), runLine_done hrun (by simp)]
  rfl

/-- What a line has written is what `cat` gives right afterwards, as a command and as a line, if the
line has not moved the session. -/
theorem cat_redirected (hword : WordOK target) (hcwd : mid.cwd = s.cwd) (hcat : "cat" ∈ mid.commands)
    (htree : mid.store.write (s.locate (some target)) x = .ok tree) (report : String) :
    let after := (mid.withTree tree).say report
    (∀ piped, after.execute "cat" [target] piped = (.ok (.text x), after)) ∧
      after.processLine ("cat " ++ target) =
        (.ok .proceed, if Text.allBlank x then after else after.say x) := by
  intro after
  have hpath : after.locate (some target) = s.locate (some target) :=
    congrArg (WorkDir.locate (some target)) hcwd
  have hfile : after.store.read (after.locate (some target)) = .ok x := by
    rw [hpath]
    exact read_ok.2 (get?_write htree)
  have hexecute : ∀ piped, after.execute "cat" [target] piped = (.ok (.text x), after) :=
    cat_written hcat hfile
  refine ⟨hexecute, ?_⟩
  have hwords : ∀ w ∈ ["cat", target], WordOK w :=
    List.forall_mem_cons.2 ⟨by decide, List.forall_mem_singleton.2 hword⟩
  have hrender : Segment.render ⟨"cat", [target]⟩ = "cat " ++ target := by
    apply String.toList_injective
    simp [Segment.render]
  rw [← hrender]
  exact processLine_command hwords (hexecute "")

/-- **A redirection stores exactly the text the pipeline gives.**

Take a line `a` without a `>` after which the session goes on. Then its pipeline gives a text `x` in
a session `mid`, and `a` prints `x` there unless it is blank. With a redirection behind it the line
runs the same pipeline to the same `mid`, and writes `x` instead, blank or not, to the target as
located before the pipeline runs.

If that fails, all is as the pipeline left it. Otherwise nothing else happens but one more line that
reports it; and then `cat` gives `x` back, as a command and as a line, if the target is a word and no
enabled `cd` was run. -/
theorem redirect_stores (ha : '>' ∉ a.toList) (htarget : Text.trim target ≠ "")
    (hgo : (s.processLine a).1 = .ok .proceed) :
    ∃ segments x mid, CommandLine.parse a = .ok ⟨none, segments⟩ ∧
      CommandLine.parse (a ++ ">" ++ target) = .ok ⟨some (Text.trim target), segments⟩ ∧
      s.runSegments .noValue segments = (.ok (.text x), mid) ∧
      s.processLine a = (.ok .proceed, if Text.allBlank x then mid else mid.say x) ∧
      let path := s.locate (some (Text.trim target))
      (∀ f, mid.store.write path x = .error f →
        s.processLine (a ++ ">" ++ target) = (.error (.store f), mid)) ∧
      ∀ tree, mid.store.write path x = .ok tree →
        let after := (mid.withTree tree).say ("Output written to " ++ path)
        s.processLine (a ++ ">" ++ target) = (.ok .proceed, after) ∧
        (WordOK target → ¬ ("cd" ∈ s.commands ∧ s.LineRuns a "cd") → "cat" ∈ s.commands →
          (∀ piped, after.execute "cat" [target] piped = (.ok (.text x), after)) ∧
          after.processLine ("cat " ++ target) =
            (.ok .proceed, if Text.allBlank x then after else after.say x)) := by
  obtain ⟨x, mid, hrun, hplain⟩ := plain_cases ha hgo
  have hparse := CommandLine.parse_redirect ha htarget
  refine ⟨_, x, mid, CommandLine.parse_plain ha, hparse, hrun, hplain, ?_⟩
  intro path
  have hline : s.processLine (a ++ ">" ++ target) = mid.deliver (some path) (.text x) := by
    rw [processLine_parsed hparse]
    exact runLine_done hrun (by simp)
  rw [deliver_to] at hline
  refine ⟨fun f hf => by rw [hline, hf], fun tree htree => ?_⟩
  refine ⟨by rw [hline, htree], fun hword hcd hcat => ?_⟩
  have hcwd : mid.cwd = s.cwd := by
    have hafter : (s.processLine a).2.cwd = mid.cwd := by
      rw [hplain]
      split <;> rfl
    rw [← hafter]
    by_contra hmoved
    exact hcd (processLine_moved hmoved)
  have hcommands := s.runSegments_commands .noValue (CommandLine.segmentsOf a.toList)
  rw [hrun] at hcommands
  have hpath : path = s.locate (some target) :=
    congrArg (fun t => s.locate (some t)) (Text.trim_solid hword.solid)
  exact cat_redirected hword hcwd (hcommands ▸ hcat) (hpath ▸ htree) _

/-- A pipeline of two commands in a directory that is not there yet, redirected below that. -/
theorem redirect_stores_below :
    let s : Session Tree := { fresh with cwd := "/d" }
    ∃ after, s.processLine ("echo hi | grep h" ++ ">" ++ "x/out") = (.ok .proceed, after) ∧
      after.terminal.lines = ["Output written to /d/x/out"] ∧
      after.store.get? "/d/x/out" = some (.file "hi") ∧
      after.execute "cat" ["x/out"] "" = (.ok (.text "hi"), after) := by
  intro s
  have hgo : (({ fresh with cwd := "/d" } : Session Tree).processLine "echo hi | grep h").1 =
    .ok .proceed := rfl
  have htarget : Text.trim "x/out" ≠ "" := by decide
  obtain ⟨segments, x, mid, hparse, -, hrun, -, -, hwritten⟩ :=
    redirect_stores (by decide) htarget hgo
  obtain rfl : [some ⟨"echo", ["hi"]⟩, some ⟨"grep", ["h"]⟩] = segments :=
    congrArg CommandLine.segments (Except.ok.inj hparse)
  obtain ⟨hx, rfl⟩ : (.ok (.text "hi") : Except Failure Outcome) = .ok (.text x) ∧ _ = mid :=
    Prod.mk.inj hrun
  obtain rfl := Outcome.text.inj (Except.ok.inj hx)
  have hstill : ¬ ("cd" ∈ s.commands ∧ s.LineRuns "echo hi | grep h" "cd") := by
    rintro ⟨-, line, front, g, back, outcome, hline, hsplit, hname, -⟩
    rw [hparse] at hline
    obtain rfl := Except.ok.inj hline
    have hmem : some g ∈ front ++ some g :: back := by simp
    rw [← hsplit] at hmem
    simp only [List.mem_cons, Option.some.injEq, List.not_mem_nil, or_false] at hmem
    rcases hmem with rfl | rfl
    · exact absurd hname (by decide)
    · exact absurd hname (by decide)
  obtain ⟨hline, hcat⟩ := hwritten _ rfl
  exact ⟨_, hline, rfl, rfl, (hcat (by decide) hstill (by decide)).1 ""⟩

/-- The target is located before a `cd` in the pipeline moves the session. -/
example : (fresh.processLine "cd e > f").2.store.get? "/f" = some (.file "") := rfl

end TreeShell.Session
