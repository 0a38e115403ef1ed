import Mathlib.Data.List.Forall2
import TreeShell.Cli.Run
import TreeShell.Proofs.Host.Disk
import TreeShell.Proofs.Host.Quiet
import TreeShell.Proofs.Session.Acts
import TreeShell.Proofs.Session.Boot
import TreeShell.Proofs.Session.Record
import TreeShell.Proofs.Snapshot.RoundTrip

/-!
# A chain of runs is one process

A run that is given a line starts from the tree in the snapshot, starts a session, runs the line and
saves the tree. Between two runs nothing is left but the text of the snapshot.

* `turn`: a start on a new terminal and one line, in memory. `turns`: one after the other, on one
  tree.
* `Serves`: what is asked of the host, which has no part in the argument otherwise.
* `printed`, `complains`: what some events come to on the two channels. `toList_unlines`: it is what
  the output is put together of.
* `turn_sound`, `turn_unsound`: a turn by the image that is there after the start.
* `runLine_some`, `runLine_none`: a line given to a run, by the session that the start gives.
* `runLine_turn`: what a run shows of its line, and the tree it leaves, are those of the turn.
* `run_from`: a run whose tree is found does its part and saves.
* `run_turn`: a run from what the run before has saved does a turn, and saves again.
* `chain_turns`: **a chain of runs is a chain of turns on one tree.**
-/

namespace TreeShell.Cli

open Host (bind_ok bind_run)
open Store (Tree TreeOK)

/-! ## Turns -/

/-- What a start and a line come to. -/
structure Turn where
  /-- The answer to the line; `none` if the start gave no session. -/
  answer : Option (Except Failure LineStatus)
  /-- What was recorded after the start. -/
  events : List Event

/-- What some events print: each line on the info channel, and a line feed behind it. -/
def printed : List Event → List Char
  | [] => []
  | .line text :: events => text.toList ++ '\n' :: printed events
  | _ :: events => printed events

/-- Whether one of some events is on the error channel. -/
def complains : List Event → Bool
  | [] => false
  | .error _ :: _ => true
  | _ :: events => complains events

/-- The exit code for a turn: 0 if there was a session, the line did not fail and nothing was
written on the error channel. -/
def Turn.code (u : Turn) : Nat :=
  match u.answer with
  | some (.ok _) => if complains u.events then 1 else 0
  | _ => 1

/-- A start on a new terminal, and a line in the session that it gives. -/
def turn (b : Boot) (line : String) (tree : Tree) : Turn × Tree :=
  match b.start { store := tree, terminal := .ofInput [] } with
  | (none, m) => ({ answer := none, events := [] }, m.store)
  | (some session, m) =>
    let (answer, after) := session.processLine line
    ({ answer := some answer
       events := after.terminal.events.drop m.terminal.events.length }, after.store)

/-- Turns on one tree, one after the other. -/
def turns (b : Boot) : Tree → List String → List (Turn × Tree)
  | _, [] => []
  | tree, line :: lines =>
    let (u, tree) := turn b line tree
    (u, tree) :: turns b tree lines

/-- A turn with a session does what the line does in that session, on a terminal of its own. -/
theorem turn_some {b : Boot} {line : String} {tree : Tree} {session : Session Tree}
    {m : Machine Tree}
    (hs : b.start { store := tree, terminal := .ofInput [] } = (some session, m)) :
    let r := session.alone.processLine line
    turn b line tree = ({ answer := some r.1, events := r.2.terminal.events }, r.2.store) := by
  intro r
  have hterminal : session.terminal = m.terminal :=
    congrArg Machine.terminal (Boot.start_toMachine hs)
  have hline : session.processLine line = Session.answerOnto r session.terminal :=
    Session.processLine_alone session line
  unfold turn
  rw [hs]
  simp only [hline, hterminal, Session.answerOnto, Session.onto, List.drop_left]

theorem turn_treeOK (b : Boot) (line : String) {tree : Tree} (ht : TreeOK tree) :
    TreeOK (turn b line tree).2 := by
  have hstart := Boot.start_treeOK (m := { store := tree, terminal := .ofInput [] }) b ht
  cases hs : b.start { store := tree, terminal := .ofInput [] } with
  | mk session m =>
    rw [hs] at hstart
    cases session with
    | none =>
      unfold turn
      rw [hs]
      exact hstart
    | some session =>
      have hstore : session.store = m.store := congrArg Machine.store (Boot.start_toMachine hs)
      rw [turn_some hs]
      rw [← hstore] at hstart
      exact Session.processLine_treeOK (s := session.alone) hstart line

theorem turns_cons {b : Boot} {line : String} {tree t : Tree} {u : Turn}
    (h : turn b line tree = (u, t)) (lines : List String) :
    turns b tree (line :: lines) = (u, t) :: turns b t lines := by
  rw [turns, h]

/-- With a sound image in the tree after the start, a turn does what its line does in a new session
over that tree. -/
theorem turn_sound {b : Boot} {tree t : Tree} {i : Image}
    (hstore : (b.start { store := tree, terminal := .ofInput [] }).2.store = t)
    (h : Boot.Sound t (Path.canonical b.corePath) i) (line : String) :
    let session : Session Tree := (Machine.mk t (.ofInput [])).session i.commands b.prompt
    let r := session.processLine line
    turn b line tree = ({ answer := some r.1, events := r.2.terminal.events }, r.2.store) := by
  intro session r
  obtain rfl := hstore
  have hs := (Boot.start_some b { store := tree, terminal := .ofInput [] } _).mpr ⟨i, h, rfl⟩
  exact turn_some (Prod.ext hs rfl)

/-- Without one, it does nothing more. -/
theorem turn_unsound {b : Boot} {tree t : Tree}
    (hstore : (b.start { store := tree, terminal := .ofInput [] }).2.store = t)
    (h : ∀ i, ¬ Boot.Sound t (Path.canonical b.corePath) i) (line : String) :
    turn b line tree = ({ answer := none, events := [] }, t) := by
  have hnone : (b.start { store := tree, terminal := .ofInput [] }).1 = none := by
    rw [Option.eq_none_iff_forall_ne_some]
    intro session hs
    obtain ⟨i, hi, -⟩ := (Boot.start_some b _ session).mp hs
    rw [hstore] at hi
    exact h i hi
  have hstart : b.start { store := tree, terminal := .ofInput [] } = (none, _) :=
    Prod.ext hnone rfl
  unfold turn
  rw [← hstore, hstart]

/-- What is put together of the lines among some events is what the events print. -/
theorem toList_unlines (events : List Event) :
    (Text.unlines (events.filterMap Event.line?)).toList = printed events := by
  unfold Text.unlines
  rw [String.toList_join]
  induction events with
  | nil => rfl
  | cons e events ih =>
    cases e with
    | line text =>
      have hline : (Event.line text :: events).filterMap Event.line? =
          text :: events.filterMap Event.line? := rfl
      rw [hline, List.map_cons, List.flatMap_cons, ih, String.toList_append, List.append_assoc]
      rfl
    | error _ => exact ih
    | prompt _ => exact ih
    | inputCleared => exact ih
    | screenCleared => exact ih

theorem complains_iff (events : List Event) :
    complains events = true ↔ events.filterMap Event.error? ≠ [] := by
  induction events with
  | nil => simp [complains]
  | cons e events ih =>
    cases e with
    | error text => simp [complains, Event.error?]
    | line _ => exact ih
    | prompt _ => exact ih
    | inputCleared => exact ih
    | screenCleared => exact ih

/-- The exit code for a turn with a session, by all that is complained of. -/
theorem Turn.code_some (answer : Except Failure LineStatus) (events : List Event) :
    Turn.code ⟨some answer, events⟩ =
      if events.filterMap Event.error? ++ (match answer with
        | .ok _ => []
        | .error f => [programName ++ ": " ++ f.message]) = [] then 0 else 1 := by
  cases answer with
  | ok status =>
    simp only [Turn.code, List.append_nil, complains_iff, ne_eq, ite_not]
  | error f => exact (if_neg (by simp)).symm

/-- A line given as an option is run in the session that the start gives. -/
theorem runLine_some {s : Settings} {tree : Tree} {session : Session Tree} {m : Machine Tree}
    (hs : (bootOf s).start { store := tree, terminal := .ofInput [] } = (some session, m))
    (line : String) :
    let r := session.alone.processLine line
    (runLine s line tree).1.out = Text.unlines r.2.terminal.lines ∧
      (runLine s line tree).1.code = Turn.code ⟨some r.1, r.2.terminal.events⟩ ∧
      (runLine s line tree).2 = r.2.store := by
  intro r
  unfold runLine
  simp only [hs]
  -- the record of the start is dropped, so the line stands on a terminal of its own
  rw [Session.processLine_alone]
  exact ⟨rfl, (Turn.code_some _ _).symm, rfl⟩

theorem runLine_none {s : Settings} {line : String} {tree : Tree} {m : Machine Tree}
    (hs : (bootOf s).start { store := tree, terminal := .ofInput [] } = (none, m)) :
    runLine s line tree =
      ({ code := 1, out := "", err := Text.unlines m.terminal.errors }, m.store) := by
  unfold runLine
  rw [hs]

/-- **A line given to a run does a turn.** -/
theorem runLine_turn (s : Settings) (line : String) (tree : Tree) :
    (runLine s line tree).1.out.toList = printed (turn (bootOf s) line tree).1.events ∧
      (runLine s line tree).1.code = (turn (bootOf s) line tree).1.code ∧
      (runLine s line tree).2 = (turn (bootOf s) line tree).2 := by
  cases hs : (bootOf s).start { store := tree, terminal := .ofInput [] } with
  | mk session m =>
    cases session with
    | none =>
      rw [runLine_none hs]
      unfold turn
      rw [hs]
      exact ⟨rfl, rfl, rfl⟩
    | some session =>
      obtain ⟨hout, hcode, hstore⟩ := runLine_some hs line
      rw [turn_some hs, hout]
      exact ⟨toList_unlines _, hcode, hstore⟩

/-! ## Runs -/

variable {H : Type} [Host (StateM H)]

/-- **What is asked of the host.** `Holds c h` says that in the state `h` of the host the file at
`path` has the text `c`, or is not there. The settings are always loaded as `s`, what was written is
read, and nothing stops the file from being written. -/
structure Serves (env : Environment) (path : String) (s : Settings)
    (Holds : Option String → H → Prop) : Prop where
  settings : ∀ c h, Holds c h →
    ∃ h', Settings.load (m := StateM H) env (env.get? "VOS_CONFIG") h = (.ok s, h') ∧ Holds c h'
  absent : ∀ h, Holds none h →
    ∃ h', Host.readText (m := StateM H) path h = (.error .noEntry, h') ∧ Holds none h'
  present : ∀ text h, Holds (some text) h →
    ∃ h', Host.readText (m := StateM H) path h = (.ok text, h') ∧ Holds (some text) h'
  write : ∀ c h text, Holds c h →
    ∃ h' h'',
      (if (Host.parent? path).getD "" = "" then (.ok (), h)
        else Host.makeDirectories (m := StateM H) ((Host.parent? path).getD "") h) = (.ok (), h') ∧
      Host.writeText (m := StateM H) path text h' = (.ok (), h'') ∧ Holds (some text) h''

/-- A run that is given a line and a file for the snapshot. -/
def oneShot (env : Environment) (snapshot input line : String) (h : H) : Exit × H :=
  run (m := StateM H) ["--snapshot", snapshot, "--command=" ++ line] env input h

def oneShots (env : Environment) (snapshot input : String) : H → List String → List (Exit × H)
  | _, [] => []
  | h, line :: lines =>
    let (exit, h) := oneShot env snapshot input line h
    (exit, h) :: oneShots env snapshot input h lines

/-- A run shows what a turn does, and leaves a file from which the tree of the turn is restored. -/
structure Matches (path : String) (r : Exit × H) (u : Turn × Tree) : Prop where
  out : r.1.out.toList = printed u.1.events
  code : r.1.code = u.1.code
  saved : ∃ text, (Host.readText (m := StateM H) path r.2).1 = .ok text ∧ treeOf text = .ok u.2

variable {env : Environment} {snapshot path : String} {s : Settings}
  {Holds : Option String → H → Prop} {h h' : H} {c : Option String} {tree : Tree}

theorem parse_snapshot (hs : isValue snapshot = true) (rest : List String) :
    parse ("--snapshot" :: snapshot :: rest) =
      parseFrom ⟨none, none, some snapshot, false⟩ rest := by
  have hsnapshot : Argument.of "--snapshot" = .awaits .snapshot := by decide
  unfold parse
  conv_lhs => unfold parseFrom
  rw [hsnapshot]
  simp only [hs, if_true]
  rfl

theorem parse_oneShot (hs : isValue snapshot = true) (line : String) :
    parse ["--snapshot", snapshot, "--command=" ++ line] =
      .ok (.run ⟨some line, none, some snapshot, false⟩) := by
  have hcommand : Argument.of ("--command=" ++ line) = .given .command line := by
    have hlist : ("--command=" ++ line).toList =
        '-' :: '-' :: ("command=".toList ++ line.toList) := by
      rw [String.toList_append]
      rfl
    have hcut : splitEquals ("command=".toList ++ line.toList) = ("command".toList, some line) := by
      show ("command".toList, some (String.ofList line.toList)) = _
      rw [String.ofList_toList]
    unfold Argument.of
    rw [hlist]
    show Argument.ofLong _ = _
    unfold Argument.ofLong
    rw [hcut]
    rfl
  rw [parse_snapshot hs]
  unfold parseFrom
  rw [hcommand]
  rfl

theorem treeOf_toJson (ht : TreeOK tree) : treeOf (Snapshot.ofTree tree).toJson = .ok tree :=
  reload_ok ht

/-- What the file of the snapshot holds stands for a tree; no file stands for the empty one. -/
def Kept (tree : Tree) : Option String → Prop
  | none => tree = .empty
  | some text => treeOf text = .ok tree

theorem loadTree_kept (hserves : Serves env path s Holds) (h0 : Holds c h) (hkept : Kept tree c) :
    ∃ h', loadTree (m := StateM H) (some path) h = (.ok tree, h') ∧ Holds c h' := by
  cases c with
  | none =>
    obtain ⟨h', hread, hh'⟩ := hserves.absent h h0
    refine ⟨h', ?_, hh'⟩
    show (Host.readText (m := StateM H) path >>= _) h = _
    rw [bind_run hread, hkept]
    rfl
  | some text =>
    obtain ⟨h', hread, hh'⟩ := hserves.present text h h0
    refine ⟨h', ?_, hh'⟩
    show (Host.readText (m := StateM H) path >>= _) h = _
    rw [bind_run hread, ← hkept]
    rfl

/-- **A tree is saved** if its directory is there or can be made and the file can be written. -/
theorem saveTree_ok : saveTree (m := StateM H) tree (some path) h = (.ok (), h') ↔ ∃ h1,
    (if (Host.parent? path).getD "" = "" then (.ok (), h)
      else Host.makeDirectories (m := StateM H) ((Host.parent? path).getD "") h) = (.ok (), h1) ∧
    Host.writeText (m := StateM H) path (Snapshot.ofTree tree).toJson h1 = (.ok (), h') := by
  have hwritten : ∀ h1 : H, (∃ h2,
      Host.writeText (m := StateM H) path (Snapshot.ofTree tree).toJson h1 = (.ok (), h2) ∧
        ((.ok (), h2) : Except Store.Fault Unit × H) = (.ok (), h')) ↔
      Host.writeText (m := StateM H) path (Snapshot.ofTree tree).toJson h1 = (.ok (), h') := by
    intro h1
    simp
  simp only [saveTree]
  split
  · rw [pure_bind]
    simp only [Prod.mk.injEq, true_and, exists_eq_left']
    exact (bind_ok fun e h' hok => by cases hok).trans (hwritten h)
  · refine (bind_ok fun e h' hok => by cases hok).trans ?_
    refine exists_congr fun h1 => and_congr_right fun _ => ?_
    exact (bind_ok fun e h' hok => by cases hok).trans (hwritten h1)

theorem saveTree_holds (hserves : Serves env path s Holds) (h0 : Holds c h) (tree : Tree) :
    ∃ h', saveTree (m := StateM H) tree (some path) h = (.ok (), h') ∧
      Holds (some (Snapshot.ofTree tree).toJson) h' := by
  obtain ⟨h1, h2, hmade, hwritten, hh2⟩ := hserves.write c h (Snapshot.ofTree tree).toJson h0
  exact ⟨h2, saveTree_ok.mpr ⟨h1, hmade, hwritten⟩, hh2⟩

/-- How a run ends: its tree is saved, and that it cannot be saved is reported. -/
def ending (file : Option String) (r : Exit × Tree) : StateM H Exit := do
  match ← saveTree r.2 file with
  | .ok () => return r.1
  | .error f => return { r.1 with code := 1, err := r.1.err ++ report f }

/-- **A run whose tree is found** does what its options ask for, from that tree, and ends. -/
theorem run_from {arguments : List String} {o : Options} {file : Option String}
    {loaded : Except Settings.Fault Settings} {h1 h2 : H} (hparse : parse arguments = .ok (.run o))
    (hload : Settings.load (m := StateM H) env (o.config.or (env.get? "VOS_CONFIG")) h =
      (loaded, h1))
    (hs : loaded.toOption.getD .builtIn = s) (hfile : snapshotPath? env o s = file)
    (htree : loadTree (m := StateM H) file h1 = (.ok tree, h2)) (input : String) :
    run (m := StateM H) arguments env input h =
      ((match o.command with
        | some line => pure (runLine s line tree)
        | none => runInput env s input tree) >>= ending file) h2 := by
  -- the settings, then the tree, then what the options ask for
  unfold run
  rw [hparse]
  simp only
  rw [bind_run hload, hs]
  unfold runWith
  rw [hfile, bind_run htree]
  cases o.command <;> rfl

/-- **A run from what is kept does a turn**, and keeps what the turn leaves. -/
theorem run_turn (hsnapshot : isValue snapshot = true) (hpath : Host.expand env snapshot = path)
    (hserves : Serves env path s Holds) (h0 : Holds c h) (hkept : Kept tree c) (ht : TreeOK tree)
    (input line : String) :
    Matches path (oneShot env snapshot input line h) (turn (bootOf s) line tree) ∧
    ∃ text, Holds (some text) (oneShot env snapshot input line h).2 ∧
      Kept (turn (bootOf s) line tree).2 (some text) := by
  obtain ⟨hout, hcode, htree⟩ := runLine_turn s line tree
  obtain ⟨h1, hload, hh1⟩ := hserves.settings c h h0
  obtain ⟨h2, htreeload, hh2⟩ := loadTree_kept hserves hh1 hkept
  obtain ⟨h3, hsave, hh3⟩ := saveTree_holds hserves hh2 (runLine s line tree).2
  have hfile : snapshotPath? env ⟨some line, none, some snapshot, false⟩ s = some path :=
    congrArg some hpath
  have hrun : oneShot env snapshot input line h = ((runLine s line tree).1, h3) := by
    have hfrom := run_from (s := s) (parse_oneShot hsnapshot line) hload rfl hfile htreeload input
    simp only [pure_bind] at hfrom
    unfold oneShot
    rw [hfrom]
    unfold ending
    rw [bind_run hsave]
    rfl
  -- whatever the line has done, the tree is sound, so what is saved of it is restored
  have hkept' : Kept (turn (bootOf s) line tree).2
      (some (Snapshot.ofTree (runLine s line tree).2).toJson) := by
    rw [htree]
    exact treeOf_toJson (turn_treeOK _ line ht)
  obtain ⟨h4, hread, -⟩ := hserves.present _ h3 hh3
  rw [hrun]
  exact ⟨⟨hout, hcode, _, by rw [hread], hkept'⟩, _, hh3, hkept'⟩

/-- A disk with the given text in a file, or as it is. -/
def onDisk (d : Host.Disk) (place : List String) : Option String → Host.Disk
  | none => d
  | some text => d.put place (.file text)

open Host in
/-- **A disk serves** if the file can be written, is not there yet and has no part in the
settings. -/
theorem serves_disk {d : Disk} {place : List String} (hplace : d.Place path place)
    (habsent : d.get? place = none)
    (hsettings : ∀ c, Settings.load (m := StateM Disk) env (env.get? "VOS_CONFIG")
      (onDisk d place c) = (.ok s, onDisk d place c)) :
    Serves env path s fun c d' => d' = onDisk d place c := by
  refine ⟨?_, ?_, ?_, ?_⟩
  · rintro c d' rfl
    exact ⟨_, hsettings c, rfl⟩
  · intro d' hd'
    have hread : d.readText path = .error .noEntry := by
      unfold Disk.readText Disk.find
      rw [hplace.reach]
      simp only [bind, Except.bind, habsent]
    rw [show d' = d from hd']
    exact ⟨d, congrArg (·, d) hread, rfl⟩
  · rintro text d' rfl
    exact ⟨_, congrArg (·, _) (hplace.readText text), rfl⟩
  · rintro c d' text rfl
    have hplace' : (onDisk d place c).Place path place := by
      cases c with
      | none => exact hplace
      | some old => exact hplace.put old
    have hput : (onDisk d place c).put place (.file text) = onDisk d place (some text) := by
      cases c with
      | none => rfl
      | some old => exact Disk.put_put d place _ _
    have hwrite := hplace'.writeText text
    rw [hput] at hwrite
    refine ⟨onDisk d place c, onDisk d place (some text), ?_, Disk.commit_ok hwrite, rfl⟩
    split
    · rfl
    · rename_i hne
      exact Disk.commit_ok (hplace'.makeDirectories hne)

/-- **A chain of runs is a chain of turns on one tree.** -/
theorem chain_turns (hsnapshot : isValue snapshot = true) (hpath : Host.expand env snapshot = path)
    (hserves : Serves env path s Holds) (h0 : Holds none h) (input : String) (lines : List String) :
    List.Forall₂ (Matches path) (oneShots env snapshot input h lines)
      (turns (bootOf s) .empty lines) := by
  -- by induction on the lines, from any kept tree: each run leaves the tree of its turn kept
  have hchain : ∀ c tree h, Holds c h → Kept tree c → TreeOK tree →
      List.Forall₂ (Matches path) (oneShots env snapshot input h lines)
        (turns (bootOf s) tree lines) := by
    induction lines with
    | nil => exact fun _ _ _ _ _ _ => .nil
    | cons line lines ih =>
      intro c tree h h0 hkept ht
      obtain ⟨hmatches, text, hholds, hkept'⟩ :=
        run_turn hsnapshot hpath hserves h0 hkept ht input line
      exact .cons hmatches (ih _ _ _ hholds hkept' (turn_treeOK _ line ht))
  exact hchain none .empty h h0 rfl Store.empty_ok

/-- A disk with a file of settings, and with an empty directory beside it. -/
def workDisk : Host.Disk :=
  ((Host.Disk.blank "work").put ["work", "state"] .dir).put ["work", "vos.json"]
    (.file "\x7b\"boot\": \x7b\"core_path\": \"/boot/core.json\"\x7d\x7d")

def workEnv : Environment := { bindings := [("VOS_CONFIG", "vos.json")], accountHome := none }

def workSettings : Settings := { Settings.builtIn with boot := { corePath := "/boot/core.json" } }

/-- The file of settings is read, whatever is in the file of the snapshot. -/
theorem load_workSettings (c : Option String) :
    Settings.load (m := StateM Host.Disk) workEnv (workEnv.get? "VOS_CONFIG")
      (onDisk workDisk ["work", "state", "fs.json"] c) =
        (.ok workSettings, onDisk workDisk ["work", "state", "fs.json"] c) := by
  have hread : (onDisk workDisk ["work", "state", "fs.json"] c).readText "vos.json" =
      .ok "\x7b\"boot\": \x7b\"core_path\": \"/boot/core.json\"\x7d\x7d" := by
    cases c with
    | none => rfl
    | some text =>
      have hfree : workDisk.get? ["work", "state", "fs.json"] ≠ some .dir := by decide
      have hreach : workDisk.reach "vos.json" = .ok ["work", "vos.json"] := rfl
      exact Host.Disk.readText_put hfree hreach rfl (by decide) text
  have hhost : Host.readText (m := StateM Host.Disk) "vos.json"
      (onDisk workDisk ["work", "state", "fs.json"] c) = (.ok _, _) :=
    congrArg (·, onDisk workDisk ["work", "state", "fs.json"] c) hread
  show (Host.readText (m := StateM Host.Disk) "vos.json" >>= _) _ = _
  rw [bind_run hhost]
  rfl

/-- What is seen of a run: its output, its exit code, and what is restored from its file. -/
def seen (path : String) (r : Exit × H) : String × Nat × Option (List (String × Store.Entry)) :=
  (r.1.out, r.1.code,
    match (Host.readText (m := StateM H) path r.2).1 with
    | .ok text => (treeOf text).toOption.map Tree.entries
    | .error _ => none)

/-- What is to be seen after a turn. -/
def shows (u : Turn × Tree) : String × Nat × Option (List (String × Store.Entry)) :=
  (String.ofList (printed u.1.events), u.1.code, some u.2.entries)

theorem Matches.seen_eq {r : Exit × H} {u : Turn × Tree} (h : Matches path r u) :
    seen path r = shows u := by
  obtain ⟨text, hread, htree⟩ := h.saved
  unfold seen shows
  rw [← h.out, h.code, hread, String.ofList_toList]
  simp only [htree]
  rfl

theorem seen_shows {rs : List (Exit × H)} {us : List (Turn × Tree)}
    (h : List.Forall₂ (Matches path) rs us) : rs.map (seen path) = us.map shows := by
  induction h with
  | nil => rfl
  | cons hmatches _ ih => rw [List.map_cons, List.map_cons, hmatches.seen_eq, ih]

/-- The text of the image that is installed, taken as a whole: no step below looks into it. -/
@[irreducible]
def coreText : String := Image.canonical.toJson

theorem coreText_eq : coreText = Image.canonical.toJson := by
  unfold coreText
  rfl

/-- The work tree once the image is installed. -/
def installedTree : Tree := Tree.empty.plant "/boot/core.json" (.file coreText)

/-- With a file beside the image. -/
def writtenTree : Tree := installedTree.bind "/a" (.file "hi")

/-- With another text for the image. -/
def spoiltTree : Tree := writtenTree.bind "/boot/core.json" (.file "x")

theorem work_place : Path.canonical (bootOf workSettings).corePath = "/boot/core.json" := by decide

theorem work_sound {t : Tree} (h : t.get? "/boot/core.json" = some (.file coreText)) :
    Boot.Sound t (Path.canonical (bootOf workSettings).corePath) Image.canonical := by
  rw [coreText_eq] at h
  rw [work_place]
  exact ⟨_, h, Image.ofJson_toJson _, Image.verify_make _ _ _⟩

theorem work_present {t : Tree} {text : String}
    (h : t.get? "/boot/core.json" = some (.file text)) :
    ((bootOf workSettings).start { store := t, terminal := .ofInput [] }).2.store = t := by
  refine Boot.start_present (m := { store := t, terminal := .ofInput [] }) ?_
  rw [work_place, h]
  exact Option.some_ne_none _

theorem work_first :
    ((bootOf workSettings).start { store := .empty, terminal := .ofInput [] }).2.store =
      installedTree := by
  have hnone : Tree.empty.get? (Path.canonical (bootOf workSettings).corePath) = none := by
    rw [work_place]
    rfl
  rw [Boot.start_open Store.empty_ok hnone (Store.empty_open _), work_place, ← coreText_eq]
  rfl

/-- Six turns. The fifth writes over the image, so that the last one has no session. -/
theorem work_turns :
    turns (bootOf workSettings) .empty
        ["cat a", "echo hi > a", "cat a", "grep h", "echo x > /boot/core.json", "pwd"] =
      [(⟨some (.error (.store (.notFound "/a"))), []⟩, installedTree),
        (⟨some (.ok .proceed), [.line "Output written to //a"]⟩, writtenTree),
        (⟨some (.ok .proceed), [.line "hi"]⟩, writtenTree),
        (⟨some (.ok .proceed), [.error "No input provided to grep"]⟩, writtenTree),
        (⟨some (.ok .proceed), [.line "Output written to /boot/core.json"]⟩, spoiltTree),
        (⟨none, []⟩, spoiltTree)] := by
  have hunsound :
      ∀ i, ¬ Boot.Sound spoiltTree (Path.canonical (bootOf workSettings).corePath) i := by
    rintro i ⟨text, htext, hi, -⟩
    rw [work_place] at htext
    obtain rfl : "x" = text := Store.Entry.file.inj (Option.some.inj htext)
    cases hi
  have h1 : turn (bootOf workSettings) "cat a" .empty =
      (⟨some (.error (.store (.notFound "/a"))), []⟩, installedTree) :=
    turn_sound work_first (work_sound rfl) "cat a"
  have h2 : turn (bootOf workSettings) "echo hi > a" installedTree =
      (⟨some (.ok .proceed), [.line "Output written to //a"]⟩, writtenTree) :=
    turn_sound (work_present rfl) (work_sound rfl) "echo hi > a"
  have h3 : turn (bootOf workSettings) "cat a" writtenTree =
      (⟨some (.ok .proceed), [.line "hi"]⟩, writtenTree) :=
    turn_sound (work_present rfl) (work_sound rfl) "cat a"
  have h4 : turn (bootOf workSettings) "grep h" writtenTree =
      (⟨some (.ok .proceed), [.error "No input provided to grep"]⟩, writtenTree) :=
    turn_sound (work_present rfl) (work_sound rfl) "grep h"
  have h5 : turn (bootOf workSettings) "echo x > /boot/core.json" writtenTree =
      (⟨some (.ok .proceed), [.line "Output written to /boot/core.json"]⟩, spoiltTree) :=
    turn_sound (work_present rfl) (work_sound rfl) "echo x > /boot/core.json"
  have h6 : turn (bootOf workSettings) "pwd" spoiltTree = (⟨none, []⟩, spoiltTree) :=
    turn_unsound (work_present rfl) hunsound "pwd"
  rw [turns_cons h1, turns_cons h2, turns_cons h3, turns_cons h4, turns_cons h5, turns_cons h6]
  rfl

/-- Six runs. The first one fails; the second writes a file that the third reads; the fourth goes on
but complains. The fifth writes over the image, so that the last one starts no session. -/
theorem chain_turns_overwritten :
    let lines := ["cat a", "echo hi > a", "cat a", "grep h", "echo x > /boot/core.json", "pwd"]
    let runs := oneShots workEnv "state/fs.json" "" workDisk lines
    let done := turns (bootOf workSettings) .empty lines
    let installed : List (String × Store.Entry) :=
      [("/", .dir), ("/boot", .dir), ("/boot/core.json", .file coreText)]
    let written : List (String × Store.Entry) :=
      [("/", .dir), ("/a", .file "hi"), ("/boot", .dir), ("/boot/core.json", .file coreText)]
    let spoilt : List (String × Store.Entry) :=
      [("/", .dir), ("/a", .file "hi"), ("/boot", .dir), ("/boot/core.json", .file "x")]
    (∃ Holds, isValue "state/fs.json" = true ∧
      Host.expand workEnv "state/fs.json" = "state/fs.json" ∧
      Serves workEnv "state/fs.json" workSettings Holds ∧ Holds none workDisk) ∧
    List.Forall₂ (Matches "state/fs.json") runs done ∧
    done.map (fun u => (u.1.answer, u.1.events, u.2.entries)) =
      [(some (.error (.store (.notFound "/a"))), [], installed),
        (some (.ok .proceed), [.line "Output written to //a"], written),
        (some (.ok .proceed), [.line "hi"], written),
        (some (.ok .proceed), [.error "No input provided to grep"], written),
        (some (.ok .proceed), [.line "Output written to /boot/core.json"], spoilt),
        (none, [], spoilt)] ∧
    runs.map (seen "state/fs.json") =
      [("", 1, some installed), ("Output written to //a\n", 0, some written),
        ("hi\n", 0, some written), ("", 1, some written),
        ("Output written to /boot/core.json\n", 0, some spoilt), ("", 1, some spoilt)] := by
  intro lines runs done installed written spoilt
  have hplace : workDisk.Place "state/fs.json" ["work", "state", "fs.json"] :=
    ⟨rfl, by decide, by decide, fun _ => by decide⟩
  have hserves := serves_disk hplace rfl load_workSettings
  have hpath : Host.expand workEnv "state/fs.json" = "state/fs.json" := rfl
  have hmatches : List.Forall₂ (Matches "state/fs.json") runs done :=
    chain_turns rfl hpath hserves rfl "" lines
  refine ⟨⟨_, rfl, hpath, hserves, rfl⟩, hmatches, ?_, ?_⟩
  · simp only [done, lines, work_turns]
    rfl
  · rw [seen_shows hmatches]
    simp only [done, lines, work_turns]
    rfl

end TreeShell.Cli
