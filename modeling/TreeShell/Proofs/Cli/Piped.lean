import TreeShell.Proofs.Cli.Chain
import TreeShell.Proofs.Cli.Refused
import TreeShell.Proofs.Session.OneLine

/-!
# The two ways of running a line

A line is given to a run as an option, or as its standard input. The first shows what the line
writes and nothing of the start; the second is a session, which greets, and keeps a history.

* `around`: what a session shows around the output of a line.
* `runSession_line`: **a session on one line comes to the same tree, and shows the same of the
  line.**
* `keepHistory`: what a session does to the host before its tree is saved.
* `oneShot_eq`, `piped_eq`: the two runs, each as the ending of what it does in memory.
* `piped_agrees`: **both ways save the same tree and show the same of the line.**
* `history_in_the_way`: a session whose history makes it impossible to save the tree.
-/

namespace TreeShell.Cli

open Host (Faithful Quiet bind_run textAt)
open Store (Tree)

/-! ## The line -/

/-- What a session shows of a line that writes `out`: the prompts stand around it, where they are
shown. -/
def around (prompts : Bool) (session : Session Tree) (line out : String) : String :=
  shown prompts (.prompt session.promptText) ++ out ++
    String.join ((Session.lastPrompt (session.alone.processLine line)).map (shown prompts))

variable {s : Settings} {line : String} {tree : Tree} {session : Session Tree} {m : Machine Tree}

/-- Where no prompts are shown, nothing stands around a line. -/
theorem around_false (session : Session Tree) (line out : String) :
    around false session line out = out := by
  unfold around Session.lastPrompt
  split <;> simp [shown]

theorem unlines_append (ls ls' : List String) :
    Text.unlines (ls ++ ls') = Text.unlines ls ++ Text.unlines ls' := by
  unfold Text.unlines
  rw [List.map_append, String.join_append]

/-- Events without a prompt among them show the lines on the info channel. -/
theorem shown_events (prompts : Bool) {events : List Event}
    (h : ∀ e ∈ events, e.isPrompt = false) :
    String.join (events.map (shown prompts)) = Text.unlines (events.filterMap Event.line?) := by
  -- by induction on the events: of each either its line is shown, or nothing
  induction events with
  | nil => rfl
  | cons e events ih =>
    have hrest := ih fun e he => h e (List.mem_cons_of_mem _ he)
    have hfirst := h e List.mem_cons_self
    rw [List.map_cons, String.join_cons, hrest]
    cases e with
    | prompt text => cases hfirst
    | line text =>
      rw [← List.singleton_append, List.filterMap_append, unlines_append]
      congr 1
    | error text => rfl
    | screenCleared => rfl
    | inputCleared => rfl

/-- A boot with lines waiting starts as one without. -/
theorem boot_lines (b : Boot) (tree : Tree) (lines : List String) :
    b.boot ⟨tree, .ofInput lines⟩ =
      match b.start ⟨tree, .ofInput []⟩ with
      | (some session, _) => (session.onto (.ofInput lines)).run.toMachine
      | (none, m) => { m with terminal := Session.behind (.ofInput lines) m.terminal } := by
  have hstart := b.start_carry (Session.behind_stands (.ofInput lines)) ⟨tree, .ofInput []⟩
  have hmachine : Machine.carry (Session.behind (.ofInput lines)) ⟨tree, .ofInput []⟩ =
      (⟨tree, .ofInput lines⟩ : Machine Tree) := rfl
  rw [hmachine] at hstart
  unfold Boot.boot
  rw [hstart]
  obtain ⟨session, m⟩ := b.start ⟨tree, .ofInput []⟩
  cases session <;> rfl

/-- **A session on one line** comes to the tree that the line comes to as an option. If there is a
session, it reads the line, and shows the messages of the start, the welcome and what the line
writes. -/
theorem runSession_line (hblank : Text.allBlank line = false) (prompts : Bool) (s : Settings)
    (tree : Tree) :
    let start := (bootOf s).start ⟨tree, .ofInput []⟩
    let r := runSession prompts s [line] tree
    r.2 = (runLine s line tree).2 ∧
    r.1.2 = (if start.1.isSome then [line] else []) ∧
    ∀ session, start.1 = some session → r.1.1.out =
      Text.unlines (start.2.terminal.lines ++ ["Welcome to vos"]) ++
        around prompts session line (runLine s line tree).1.out := by
  intro start r
  have hboot := boot_lines (bootOf s) tree [line]
  cases hs : (bootOf s).start ⟨tree, .ofInput []⟩ with
  | mk session m =>
    rw [hs] at hboot
    have hstart : start = (session, m) := hs
    cases session with
    | none =>
      simp only at hboot
      refine ⟨?_, ?_, fun session hsome => ?_⟩
      · have hstore : (runLine s line tree).2 = m.store := congrArg Prod.snd (runLine_none hs)
        rw [hstore]
        exact (congrArg Machine.store hboot :)
      · simp only [r, runSession, hboot, hstart]
        rfl
      · rw [hstart] at hsome
        cases hsome
    | some session =>
      obtain ⟨hout, -, hstore⟩ := runLine_some hs line
      have hterminal : session.terminal = m.terminal :=
        congrArg Machine.terminal (Boot.start_toMachine hs)
      have hprefix := shown_events prompts ((bootOf s).start_silent tree [])
      have hline := shown_events prompts (session.processLine_silent line)
      have hclosing : ∀ answer, String.join ((Session.closing answer).map (shown prompts)) = "" := by
        intro answer
        cases answer with
        | ok status => cases status <;> rfl
        | error f => rfl
      rw [hs] at hprefix
      -- the events of the start stand before the session, and the one line waits for it
      have hrun := Session.run_line (s := session.onto (.ofInput [line])) rfl hblank
      have halone : (session.onto (.ofInput [line])).alone = session.alone := rfl
      have hprompt : (session.onto (.ofInput [line])).promptText = session.promptText := rfl
      have hevents : (session.onto (.ofInput [line])).terminal.events = m.terminal.events := by
        rw [← hterminal]
        rfl
      simp only [halone, hprompt, hevents] at hrun
      simp only [hrun] at hboot
      refine ⟨?_, ?_, fun session' hsome => ?_⟩
      · rw [hstore]
        exact (congrArg Machine.store hboot :)
      · simp only [r, runSession, hboot, hstart]
        rfl
      · rw [hstart] at hsome
        obtain rfl : session = session' := Option.some.inj hsome
        have hshown : r.1.1.out = String.join ((m.terminal.events ++
            .line "Welcome to vos" :: .prompt session.promptText ::
              ((session.alone.processLine line).2.terminal.events ++
                Session.closing (session.alone.processLine line).1 ++
                Session.lastPrompt (session.alone.processLine line))).map (shown prompts)) := by
          simp only [r, runSession, hboot]
        rw [hshown, hstart, hout]
        simp only [List.map_append, List.map_cons, String.join_append, String.join_cons, hprefix,
          hline, hclosing, unlines_append, around, String.append_empty, String.append_assoc]
        rfl

/-- The text of one line, with its line feed or without, has that line. -/
theorem lines_line {typed : String} (hfeed : '\n' ∉ typed.toList) (hreturn : '\r' ∉ typed.toList)
    (hne : typed ≠ "") : Text.lines typed = [typed] ∧ Text.lines (typed ++ "\n") = [typed] := by
  have hend : Text.withoutReturn typed.toList = typed.toList :=
    if_neg fun hlast => hreturn (List.mem_of_getLast? hlast)
  have hchars : typed.toList ≠ [] := by simpa using hne
  have hcut : (typed ++ "\n").toList.splitOn '\n' = [typed.toList, []] := by
    have hpieces : (['\n'].intercalate [typed.toList, []]).splitOn '\n' = [typed.toList, []] :=
      List.splitOn_intercalate _ (by simpa using hfeed) (by simp)
    rw [String.toList_append]
    exact hpieces
  unfold Text.lines Text.linesOf
  rw [List.splitOn_eq_singleton hfeed, hcut]
  simp [hend, hchars]

/-- A line without a backspace is handed over as it is. -/
theorem takeBack_plain {typed : String} (h : '\x08' ∉ typed.toList) :
    Text.takeBack typed = typed := by
  have hnone : typed.toList.contains '\x08' = false := by simpa using h
  unfold Text.takeBack Text.takeBackChars
  rw [hnone]
  exact String.ofList_toList

/-! ## Runs -/

variable {H : Type} [Host (StateM H)] {env : Environment} {snapshot typed input : String} {h : H}

/-- A run that is given a file for the snapshot, and lines as its standard input. -/
def piped (env : Environment) (snapshot input : String) (h : H) : Exit × H :=
  run (m := StateM H) ["--snapshot", snapshot] env input h

/-- What a session does to the host: the lines that were read go into the history. -/
def keepHistory (env : Environment) (s : Settings) (read : List String) : StateM H Unit :=
  match historyPath? env s with
  | none => return ()
  | some path => do
    let kept ← loadHistory s.shell.history.maxEntries path
    saveHistory (historyAfter kept read) path

theorem runInput_run (env : Environment) (s : Settings) (input : String) (tree : Tree) (h : H) :
    let r := runSession (showsPrompts env) s ((Text.lines input).map Text.takeBack) tree
    runInput (m := StateM H) env s input tree h =
      ((r.1.1, r.2), (keepHistory (H := H) env s r.1.2 h).2) := by
  intro r
  unfold runInput keepHistory
  simp only
  cases historyPath? env s <;> rfl

/-- **How a run that has come to a tree ends.** The tree is saved from the host `h`. Then it is in
the file, or the run reports that it is not. -/
structure Ends (path : String) (tree : Tree) (h : H) (r : Exit × H) : Prop where
  host : r.2 = (saveTree (m := StateM H) tree (some path) h).2
  kept : (saveTree (m := StateM H) tree (some path) h).1 = .ok () →
    textAt path r.2 = .ok (Snapshot.ofTree tree).toJson
  refused : ∀ f, (saveTree (m := StateM H) tree (some path) h).1 = .error f →
    r.1.code = 1 ∧ ∃ err, r.1.err = err ++ report f

/-- **What was saved is read.** -/
theorem textAt_saveTree (hfaithful : Faithful H) {path : String} {h' : H}
    (hsaved : saveTree (m := StateM H) tree (some path) h = (.ok (), h')) :
    textAt path h' = .ok (Snapshot.ofTree tree).toJson := by
  obtain ⟨h1, -, hwritten⟩ := saveTree_ok.mp hsaved
  have hread := hfaithful.written path (Snapshot.ofTree tree).toJson h1 (by rw [hwritten])
  rw [hwritten] at hread
  exact hread

/-- A run ends in one of the two ways, and shows what was shown before. -/
theorem ending_ends (hfaithful : Faithful H) (path : String) (r : Exit × Tree) (h : H) :
    Ends path r.2 h (ending (some path) r h) ∧ (ending (some path) r h).1.out = r.1.out := by
  unfold ending
  cases hsave : saveTree (m := StateM H) r.2 (some path) h with
  | mk answer h' =>
    rw [bind_run hsave]
    cases answer with
    | ok _ =>
      refine ⟨⟨by rw [hsave]; rfl, fun _ => textAt_saveTree hfaithful hsave, fun f hf => ?_⟩, rfl⟩
      rw [hsave] at hf
      cases hf
    | error f =>
      refine ⟨⟨by rw [hsave]; rfl, fun hf => ?_, fun f' hf => ?_⟩, rfl⟩
      · rw [hsave] at hf
        cases hf
      · rw [hsave] at hf
        obtain rfl := Except.error.inj hf
        exact ⟨rfl, _, rfl⟩

section Runs

variable (hquiet : Quiet H) (hsnapshot : isValue snapshot = true)
  (htree : treeFrom (Host.expand env snapshot) (textAt (Host.expand env snapshot) h) = .ok tree)

include hquiet hsnapshot htree

omit hsnapshot in
theorem loadTree_found :
    loadTree (m := StateM H) (some (Host.expand env snapshot)) h = (.ok tree, h) := by
  rw [loadTree_reads hquiet (Host.expand env snapshot) h]
  exact congrArg (·, h) htree

/-- **A line given as an option** is run on the tree of the snapshot, on the host as it is. -/
theorem oneShot_eq (unread line : String) :
    oneShot env snapshot unread line h =
      ending (some (Host.expand env snapshot)) (runLine (settingsOn env .none h) line tree) h := by
  have hload := Settings.load_reads hquiet env (env.get? "VOS_CONFIG") h
  have hs : _ = settingsOn env .none h := settingsOn_loaded hquiet
  have hfound := loadTree_found hquiet htree
  have hfrom := run_from (parse_oneShot hsnapshot line) hload hs rfl hfound unread
  simp only [pure_bind] at hfrom
  exact hfrom

/-- **A line given as standard input** comes to the same tree. Before that is saved, the line goes
into the history if it was read. -/
theorem piped_eq {line : String} (hlines : (Text.lines input).map Text.takeBack = [line])
    (hblank : Text.allBlank line = false) :
    let s := settingsOn env .none h
    let read := if ((bootOf s).start ⟨tree, .ofInput []⟩).1.isSome then [line] else []
    piped env snapshot input h = ending (some (Host.expand env snapshot))
      ((runSession (showsPrompts env) s [line] tree).1.1, (runLine s line tree).2)
      (keepHistory env s read h).2 := by
  intro s read
  have hload := Settings.load_reads hquiet env (env.get? "VOS_CONFIG") h
  have hs : _ = settingsOn env .none h := settingsOn_loaded hquiet
  have hfound := loadTree_found hquiet htree
  obtain ⟨hstore, htaken, -⟩ := runSession_line hblank (showsPrompts env) s tree
  -- the tree is that of the line as an option, and what was read is the line or nothing
  have hrun : runInput (m := StateM H) env s input tree h =
      (((runSession (showsPrompts env) s [line] tree).1.1, (runLine s line tree).2),
        (keepHistory env s read h).2) := by
    rw [runInput_run, hlines, ← hstore, htaken]
  exact (run_from (parse_snapshot hsnapshot []) hload hs rfl hfound input).trans (bind_run hrun)

end Runs

/-- **Both ways of running a line come to the same.** The snapshot is absent or restorable, and the
line is one of standard input: it is not blank, and what the editor hands over of it is given as the
option. Then both runs save the same tree, and which text that is does not depend on the way. The
session saves it after the line has gone into the history; without a file for the history the host
ends up the same. If there is a session, standard output shows the messages of the start, the
welcome and what the line shows as an option, with prompts around it where the editor shows them. -/
theorem piped_agrees (hfaithful : Faithful H) (hsnapshot : isValue snapshot = true)
    (htree : treeFrom (Host.expand env snapshot) (textAt (Host.expand env snapshot) h) = .ok tree)
    (hfeed : '\n' ∉ typed.toList) (hreturn : '\r' ∉ typed.toList)
    (hblank : Text.allBlank (Text.takeBack typed) = false)
    (hinput : input = typed ∨ input = typed ++ "\n") (unread : String) :
    let path := Host.expand env snapshot
    let line := Text.takeBack typed
    let s := settingsOn env .none h
    let start := (bootOf s).start ⟨tree, .ofInput []⟩
    let given := oneShot env snapshot unread line h
    let read := piped env snapshot input h
    let remembered := (keepHistory env s (if start.1.isSome then [line] else []) h).2
    let greeting := Text.unlines (start.2.terminal.lines ++ ["Welcome to vos"])
    (∃ left, Ends path left h given ∧ Ends path left remembered read) ∧
    (historyPath? env s = none → read.2 = given.2) ∧
    ∀ session, start.1 = some session →
      read.1.out = greeting ++ around (showsPrompts env) session line given.1.out ∧
      (showsPrompts env = false → read.1.out = greeting ++ given.1.out) := by
  intro path line s start given read remembered greeting
  -- an empty line would be blank, so the input has exactly this line
  have hne : typed ≠ "" := by
    rintro rfl
    exact absurd hblank (by decide)
  obtain ⟨hwhole, hended⟩ := lines_line hfeed hreturn hne
  have hlines : (Text.lines input).map Text.takeBack = [line] := by
    rcases hinput with rfl | rfl
    · rw [hwhole]
      rfl
    · rw [hended]
      rfl
  have hgiven : given = ending (some path) (runLine s line tree) h :=
    oneShot_eq hfaithful.toQuiet hsnapshot htree unread line
  have hread : read = ending (some path)
      ((runSession (showsPrompts env) s [line] tree).1.1, (runLine s line tree).2) remembered :=
    piped_eq hfaithful.toQuiet hsnapshot htree hlines hblank
  obtain ⟨-, -, hshown⟩ := runSession_line hblank (showsPrompts env) s tree
  obtain ⟨hends, hout⟩ := ending_ends hfaithful path (runLine s line tree) h
  obtain ⟨hends', hout'⟩ := ending_ends hfaithful path
    ((runSession (showsPrompts env) s [line] tree).1.1, (runLine s line tree).2) remembered
  rw [← hgiven] at hends hout
  rw [← hread] at hends' hout'
  refine ⟨⟨(runLine s line tree).2, hends, hends'⟩, fun hnone => ?_, fun session hsession => ?_⟩
  · -- without a file for the history both trees are saved from the same host
    have hsame : remembered = h := by
      show (keepHistory (H := H) env s _ h).2 = h
      unfold keepHistory
      rw [hnone]
      rfl
    rw [hends.host, hends'.host, hsame]
  · have hsession' := hshown session hsession
    rw [hout, hout']
    refine ⟨hsession', fun hprompts => ?_⟩
    rw [hprompts, around_false] at hsession'
    rw [hprompts]
    exact hsession'

/-- A line that fails midway, on a new tree. The history goes into a new directory. -/
theorem piped_agrees_midway :
    let line := "mkdir d | cat d/nope"
    (Host.Faithful Host.Disk ∧ isValue "state/fs.json" = true ∧
      treeFrom "state/fs.json" (textAt "state/fs.json" workDisk) = .ok .empty) ∧
    ∃ left,
      textAt "state/fs.json" (oneShot workEnv "state/fs.json" "" line workDisk).2 =
        .ok (Snapshot.ofTree left).toJson ∧
      textAt "state/fs.json" (piped workEnv "state/fs.json" (line ++ "\n") workDisk).2 =
        .ok (Snapshot.ofTree left).toJson := by
  intro line
  have hpath : Host.expand workEnv "state/fs.json" = "state/fs.json" := rfl
  have hsettings : settingsOn workEnv .none workDisk = workSettings :=
    congrArg (·.1.toOption.getD .builtIn) (load_workSettings none)
  have hline : Text.takeBack line = line := takeBack_plain (by decide)
  have htree : treeFrom (Host.expand workEnv "state/fs.json")
      (textAt (Host.expand workEnv "state/fs.json") workDisk) = .ok .empty := rfl
  have hfeed : '\n' ∉ line.toList := by decide
  have hreturn : '\r' ∉ line.toList := by decide
  have hblank : Text.allBlank (Text.takeBack line) = false := by decide
  have hagrees := piped_agrees Host.disk_faithful rfl htree hfeed hreturn hblank (.inr rfl) ""
  obtain ⟨session, hsession⟩ :=
    Boot.start_empty (bootOf workSettings) (.ofInput []) (by decide)
  simp only [hpath, hsettings, hline, hsession, Option.isSome_some, if_true] at hagrees
  obtain ⟨⟨left, hgiven, hread⟩, -⟩ := hagrees
  have hkept : keepHistory workEnv workSettings ["mkdir d | cat d/nope"] workDisk =
      ((), (workDisk.put ["work", "~"] .dir).put ["work", "~", ".vos_history"]
        (.file (History.toText ⟨["mkdir d | cat d/nope"], 10000, true⟩))) := rfl
  refine ⟨⟨Host.disk_faithful, rfl, htree⟩, left, hgiven.kept rfl, hread.kept ?_⟩
  rw [hkept]
  rfl

/-- A disk with a home directory. -/
def homeDisk : Host.Disk := (Host.Disk.blank "work").put ["work", "home"] .dir

def homeEnv : Environment := ⟨[("HOME", "/work/home")], none⟩

/-- The disk after a session in which one line was read. -/
def rememberingDisk : Host.Disk :=
  homeDisk.put ["work", "home", ".vos_history"] (.file "#V2\npwd\n")

/-- Nothing can be saved in a directory with the name of a file. -/
theorem saveTree_blocked (left : Tree) :
    (saveTree (m := StateM Host.Disk) left (some "home/.vos_history/fs.json") rememberingDisk).2 =
      rememberingDisk := by
  have hdirectory : (Host.parent? "home/.vos_history/fs.json").getD "" = "home/.vos_history" := rfl
  have hmade : Host.makeDirectories (m := StateM Host.Disk) "home/.vos_history" rememberingDisk =
      (.error .exists, rememberingDisk) := rfl
  -- the directory cannot be made, so the file is not even tried
  simp only [saveTree, hdirectory]
  rw [if_neg (by decide), bind_run hmade]
  rfl

/-- **The history can stand in the way of the snapshot.** The file of the snapshot is to be in a
directory that has the name of the file for the history. It is there after a line that was given as
an option. A session has kept its history by then, and in a file there is nothing. -/
theorem history_in_the_way :
    let snapshot := "home/.vos_history/fs.json"
    let s := settingsOn homeEnv .none homeDisk
    Settings.load (m := StateM Host.Disk) homeEnv none homeDisk = (.ok s, homeDisk) ∧
    treeFrom snapshot (textAt snapshot homeDisk) = .ok .empty ∧
    ((bootOf s).start ⟨Tree.empty, .ofInput []⟩).1.isSome ∧
    ∃ text, textAt snapshot (oneShot homeEnv snapshot "" "pwd" homeDisk).2 = .ok text ∧
      textAt snapshot (piped homeEnv snapshot "pwd" homeDisk).2 = .error .notDirectory := by
  have hpath : Host.expand homeEnv "home/.vos_history/fs.json" = "home/.vos_history/fs.json" := rfl
  have hsettings : settingsOn homeEnv .none homeDisk = .builtIn := rfl
  have htree : treeFrom (Host.expand homeEnv "home/.vos_history/fs.json")
      (textAt (Host.expand homeEnv "home/.vos_history/fs.json") homeDisk) = .ok .empty := rfl
  obtain ⟨session, hsession⟩ := Boot.start_empty (bootOf .builtIn) (.ofInput []) (by decide)
  have hlines : (Text.lines "pwd").map Text.takeBack = ["pwd"] := by decide
  have hgiven := oneShot_eq Host.disk_quiet rfl htree "" "pwd"
  have hread := piped_eq Host.disk_quiet rfl htree hlines (by decide)
  have hkept : keepHistory homeEnv .builtIn ["pwd"] homeDisk = ((), rememberingDisk) := rfl
  simp only [hpath, hsettings, hsession, hkept, Option.isSome_some, if_true] at hgiven hread htree
  simp only [hsettings, hsession, Option.isSome_some, htree, hgiven, hread, true_and]
  refine ⟨rfl, (Snapshot.ofTree (runLine .builtIn "pwd" .empty).2).toJson, ?_, ?_⟩
  · have hsaved : ∀ left, (saveTree (m := StateM Host.Disk) left
        (some "home/.vos_history/fs.json") homeDisk).1 = .ok () := fun _ => rfl
    exact (ending_ends Host.disk_faithful _ _ homeDisk).1.kept (hsaved _)
  · rw [(ending_ends Host.disk_faithful _ _ _).1.host, saveTree_blocked]
    rfl

end TreeShell.Cli
