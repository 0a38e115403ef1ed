import TreeShell.Cli.Run
import TreeShell.Proofs.Settings.Layers
import TreeShell.Proofs.Snapshot.Restore

/-!
# A snapshot that cannot be restored

A run whose snapshot is refused ends before it does anything. So what is kept of the tree is never
written over by mistake.

* `Lost`: what can be wrong with the text of a snapshot. `treeOf_error`: **nothing else is refused.**
* `loadTree_reads`: taking the tree from the snapshot only reads the host.
* `run_refused`: **a run from such a snapshot fails, shows nothing and leaves the host as it is.**
-/

namespace TreeShell.Cli

open Host (Quiet Reads bind_run textAt)
open TreeShell.Path (canonical parent?)
open Store (Entry Tree)

/-- What can be wrong with the text of a snapshot. -/
inductive Lost (text : String) : Prop
  /-- It is no JSON, or has another shape. -/
  | malformed {r : Json.Rejection} (h : Snapshot.parse text = .error r)
  | format {s : Snapshot} (h : Snapshot.parse text = .ok s)
      (hformat : s.format ≠ Snapshot.currentFormat)
  /-- A spelling of the root is a file. -/
  | root {s : Snapshot} {p c : String} (h : Snapshot.ofJson text = .ok s)
      (hentry : (p, .file c) ∈ s.entries.toList) (hroot : canonical p = "/")
  /-- An entry has no parent. -/
  | orphan {s : Snapshot} {q d : String} (h : Snapshot.ofJson text = .ok s)
      (hentry : (s.placed? q).isSome) (hparent : parent? q = some d) (hnone : s.placed? d = none)
  /-- The parent of an entry is a file. -/
  | inFile {s : Snapshot} {q d c : String} (h : Snapshot.ofJson text = .ok s)
      (hentry : (s.placed? q).isSome) (hparent : parent? q = some d)
      (hfile : s.placed? d = some (.file c))

theorem ofJson_error {text : String} : (∃ f, Snapshot.ofJson text = .error f) ↔
    (∃ r, Snapshot.parse text = .error r) ∨
      ∃ s, Snapshot.parse text = .ok s ∧ s.format ≠ Snapshot.currentFormat := by
  unfold Snapshot.ofJson
  cases Snapshot.parse text with
  | error r => simp
  | ok s => by_cases hformat : s.format = Snapshot.currentFormat <;> simp [hformat]

/-- **What is refused** is lost in one of these ways. -/
theorem treeOf_error {text : String} : (∃ f, treeOf text = .error f) ↔ Lost text := by
  have htree : ∀ {s}, Snapshot.ofJson text = .ok s → treeOf text = s.restore := by
    intro s hs
    unfold treeOf
    rw [hs]
    rfl
  constructor
  · intro hrefused
    cases hs : Snapshot.ofJson text with
    | error f =>
      rcases ofJson_error.1 ⟨f, hs⟩ with ⟨r, hr⟩ | ⟨s, hparse, hformat⟩
      · exact .malformed hr
      · exact .format hparse hformat
    | ok s =>
      rw [htree hs] at hrefused
      rcases Snapshot.restore_error.1 hrefused with ⟨p, c, hentry, hroot⟩ | ⟨q, d, hq, hd, hne⟩
      · exact .root hs hentry hroot
      · cases hplaced : s.placed? d with
        | none => exact .orphan hs hq hd hplaced
        | some e =>
          cases e with
          | dir => exact absurd hplaced hne
          | file c => exact .inFile hs hq hd hplaced
  · intro hlost
    have hmalformed : ∀ f, Snapshot.ofJson text = .error f → ∃ f, treeOf text = .error f := by
      intro f hf
      refine ⟨f, ?_⟩
      unfold treeOf
      rw [hf]
      rfl
    cases hlost with
    | malformed h =>
      obtain ⟨f, hf⟩ := ofJson_error.2 (.inl ⟨_, h⟩)
      exact hmalformed f hf
    | format h hformat =>
      obtain ⟨f, hf⟩ := ofJson_error.2 (.inr ⟨_, h, hformat⟩)
      exact hmalformed f hf
    | root h hentry hroot =>
      rw [htree h]
      exact Snapshot.restore_error.2 (.inl ⟨_, _, hentry, hroot⟩)
    | @orphan s q d h hentry hparent hnone =>
      have hne : s.placed? d ≠ some .dir := by simp [hnone]
      rw [htree h]
      exact Snapshot.restore_error.2 (.inr ⟨q, d, hentry, hparent, hne⟩)
    | @inFile s q d c h hentry hparent hfile =>
      have hne : s.placed? d ≠ some .dir := by simp [hfile]
      rw [htree h]
      exact Snapshot.restore_error.2 (.inr ⟨q, d, hentry, hparent, hne⟩)

/-! ## Runs -/

variable {H : Type} [Host (StateM H)] {env : Environment} {arguments : List String} {o : Options}
  {path text : String} {h : H}

/-- The tree in the file of a snapshot, given what came of reading it. -/
def treeFrom (path : String) : Except Errno String → Except Store.Fault Tree
  | .ok text => treeOf text
  | .error .noEntry => .ok .empty
  | .error e => .error (.internal ("failed to read snapshot " ++ path ++ ": " ++ e.message))

/-- **Taking the tree from a snapshot only reads the host.** -/
theorem loadTree_reads (hquiet : Quiet H) (path : String) :
    Reads (loadTree (m := StateM H) (some path)) fun h => treeFrom path (textAt path h) := by
  refine Reads.bind (g := fun read _ => treeFrom path read) (hquiet.readText path) fun read => ?_
  cases read with
  | ok text => exact .pure (treeOf text)
  | error e => cases e <;> exact .pure _

/-- The settings of a run with the given options. -/
def settingsOn (env : Environment) (o : Options) (h : H) : Settings :=
  (Settings.load (m := StateM H) env (o.config.or (env.get? "VOS_CONFIG")) h).1.toOption.getD
    .builtIn

theorem settingsOn_loaded (hquiet : Quiet H) :
    (Settings.loaded env (o.config.or (env.get? "VOS_CONFIG")) h).toOption.getD .builtIn =
      settingsOn env o h := by
  unfold settingsOn
  rw [Settings.load_reads hquiet env (o.config.or (env.get? "VOS_CONFIG")) h]

/-- **A run from a snapshot that cannot be restored.** Its text is lost in one of the known ways. For
every such snapshot, also one that cannot be read, the run fails, whatever the line and the input,
shows nothing on standard output and leaves the host as it is. -/
theorem run_refused (hquiet : Quiet H) (hrun : parse arguments = .ok (.run o))
    (hpath : snapshotPath? env o (settingsOn env o h) = some path) :
    (∀ text, textAt path h = .ok text →
      ((∃ f, (loadTree (m := StateM H) (some path) h).1 = .error f) ↔ Lost text)) ∧
    ∀ f, (loadTree (m := StateM H) (some path) h).1 = .error f → ∀ input,
      run (m := StateM H) arguments env input h = ({ code := 1, out := "", err := report f }, h) := by
  have hload := loadTree_reads hquiet path h
  rw [hload]
  refine ⟨fun text htext => ?_, fun f hf input => ?_⟩
  · rw [← treeOf_error]
    simp only [htext, treeFrom]
  · have hsettings := Settings.load_reads hquiet env (o.config.or (env.get? "VOS_CONFIG")) h
    rw [← settingsOn_loaded hquiet] at hpath
    have hrefused : loadTree (m := StateM H) (some path) h = (.error f, h) := by
      rw [hload]
      exact congrArg (·, h) hf
    -- the settings and the tree are read before anything is run, and there the run ends
    unfold run
    rw [hrun]
    simp only
    rw [bind_run hsettings]
    unfold runWith
    rw [hpath, bind_run hrefused]
    rfl

/-- The text of a snapshot with a directory that has no parent. -/
def orphanText : String :=
  "\x7b\"format\": 1, \"entries\": \x7b\"/a/b\": \x7b\"type\": \"dir\"\x7d\x7d\x7d"

def orphanDisk : Host.Disk := (Host.Disk.blank "work").put ["work", "fs.json"] (.file orphanText)

def orphanOptions : Options := ⟨some "echo x > y", none, some "fs.json", false⟩

/-- A line that would write a file, given to a run from that snapshot. -/
theorem run_refused_orphan :
    (Quiet Host.Disk ∧
      parse ["--snapshot=fs.json", "-c", "echo x > y"] = .ok (.run orphanOptions) ∧
      snapshotPath? ⟨[], none⟩ orphanOptions (settingsOn ⟨[], none⟩ orphanOptions orphanDisk) =
        some "fs.json" ∧
      textAt "fs.json" orphanDisk = .ok orphanText) ∧
    Lost orphanText ∧
    run (m := StateM Host.Disk) ["--snapshot=fs.json", "-c", "echo x > y"] ⟨[], none⟩ "pwd"
      orphanDisk = ({ code := 1, out := "", err := "Error: NotFound(\"/a\")\n" }, orphanDisk) := by
  have hrun : parse ["--snapshot=fs.json", "-c", "echo x > y"] = .ok (.run orphanOptions) := rfl
  have hpath : snapshotPath? ⟨[], none⟩ orphanOptions
      (settingsOn ⟨[], none⟩ orphanOptions orphanDisk) = some "fs.json" := rfl
  have htext : textAt "fs.json" orphanDisk = .ok orphanText := rfl
  have htree : (loadTree (m := StateM Host.Disk) (some "fs.json") orphanDisk).1 =
      .error (.notFound "/a") := rfl
  have hreport : report (.notFound "/a") = "Error: NotFound(\"/a\")\n" := by decide
  obtain ⟨hlost, hrefused⟩ := run_refused Host.disk_quiet hrun hpath
  refine ⟨⟨Host.disk_quiet, hrun, hpath, htext⟩, (hlost _ htext).1 ⟨_, htree⟩, ?_⟩
  rw [← hreport]
  exact hrefused _ htree "pwd"

end TreeShell.Cli
