import TreeShell.Proofs.Cli.Refused
import TreeShell.Proofs.Host.Variable

/-!
# The settings file that is named

A run can be told its settings file by an option, and by a variable of the environment. The variable
is looked at first, so an option that names another file is passed over.

* `chosen`: the file that is loaded where one is named. `load_file`: what is loaded from it.
* `load_same`: **the variable counts for nothing but the choice**, unless the chosen file refers to
  it.
* `runWith_same`: what a run does with its settings depends on the environment through a few paths.
* `run_same`, `run_overruled`: when an option counts, and when it makes no difference.
* `named_overruled`: **a named file counts where the variable names no other one**, and only there.
-/

namespace TreeShell

open Environment (SameBut)
open Host (Quiet bind_run textAt)

namespace Settings

variable {H : Type} [Host (StateM H)] {env env' : Environment} {h : H} {p p' : String}

/-- The file that is loaded where `p` is named. -/
def chosen (env : Environment) (p : String) : String := (env.get? "VOS_CONFIG").getD p

theorem source_some (env : Environment) (p : String) : source env (some p) = .file (chosen env p) := by
  unfold source chosen
  cases env.get? "VOS_CONFIG" with
  | none => rfl
  | some q => rfl

/-- A file that the variable names is the source, whatever is named beside it. -/
theorem source_of_set {q : String} (hq : env.get? "VOS_CONFIG" = some q) (explicit : Option String) :
    source env explicit = .file q := by
  unfold source
  rw [hq]
  rfl

/-- **What is loaded** where the source is one file: the settings in it. -/
theorem load_file (hquiet : Quiet H) {explicit : Option String}
    (hsource : source env explicit = .file p) (h : H) :
    load (m := StateM H) env explicit h = (finish env (ofFile env p (textAt p h)), h) := by
  rw [load_reads hquiet env explicit h]
  unfold loaded
  rw [hsource]

/-- The variables that set something are others than the one that names a file. -/
theorem finish_same (hsame : SameBut "VOS_CONFIG" env env') (files : Except Fault Settings) :
    finish env files = finish env' files := by
  have hget : ∀ other, ¬ Environment.Finds "VOS_CONFIG" other → env.get? other = env'.get? other :=
    fun other => hsame.get? (by decide)
  have hadjust : ∀ s : Settings, s.adjust env = s.adjust env' := by
    intro s
    unfold adjust
    rw [hget "VOS_LOOP_DELAY_MS" (by decide), hget "VOS_CORE_PATH" (by decide),
      hget "VOS_SNAPSHOT" (by decide), hget "VOS_LOG_LEVEL" (by decide)]
  unfold finish
  simp only [hadjust]

theorem ofFile_same (hsame : SameBut "VOS_CONFIG" env env') {read : Except Errno String}
    (hspares : ∀ text, read = .ok text → Spares "VOS_CONFIG" text) (path : String) :
    ofFile env path read = ofFile env' path read := by
  cases read with
  | error e =>
    have hrefused : ∀ env, ofFile env path (.error e) = .error (.unreadable path e) := fun _ => rfl
    rw [hrefused, hrefused]
  | ok text =>
    have hfill : fill env text = fill env' text := (hspares text rfl).fill hsame (by decide)
    have hdraft : Draft.ofFile env path text = Draft.ofFile env' path text := by
      unfold Draft.ofFile
      simp only [hfill]
    unfold ofFile
    simp only [Except.mapError, bind, Except.bind, hdraft]

/-- **The variable counts for nothing but the choice**, unless the chosen file refers to it. -/
theorem load_same (hquiet : Quiet H) (hsame : SameBut "VOS_CONFIG" env env')
    (hchosen : chosen env p = chosen env' p')
    (hspares : ∀ text, textAt (chosen env p) h = .ok text → Spares "VOS_CONFIG" text) :
    load (m := StateM H) env (some p) h = load (m := StateM H) env' (some p') h := by
  rw [load_file hquiet (source_some env p), load_file hquiet (source_some env' p'), ← hchosen,
    ofFile_same hsame hspares, finish_same hsame]

/-- Where the variable names a file, the named one counts exactly if it says the same. -/
theorem load_same_iff (hquiet : Quiet H) (hsame : SameBut "VOS_CONFIG" env env') {q : String}
    (hq : env.get? "VOS_CONFIG" = some q) (hunset : env'.get? "VOS_CONFIG" = none)
    (hspares : ∀ text, textAt q h = .ok text → Spares "VOS_CONFIG" text) :
    load (m := StateM H) env (some p) h = load (m := StateM H) env' (some p) h ↔
      load (m := StateM H) env' (some q) h = load (m := StateM H) env' (some p) h := by
  have hchosen : chosen env p = q := by
    unfold chosen
    rw [hq]
    rfl
  have halone : chosen env' q = q := by
    unfold chosen
    rw [hunset]
    rfl
  have hload : load (m := StateM H) env (some p) h = load (m := StateM H) env' (some q) h := by
    refine load_same hquiet hsame (hchosen.trans halone.symm) ?_
    rwa [hchosen]
  rw [hload]

end Settings

namespace Cli

open Settings (chosen)

/-! ## Runs -/

variable {H : Type} [Host (StateM H)] {env env' : Environment} {h : H} {p : String} {o : Options}
  {s : Settings}

/-- The paths of the host in the options and the settings, as they are written. -/
def hostPaths (o : Options) (s : Settings) : List String :=
  o.snapshot.toList ++ [s.storage.snapshot, s.shell.history.file]

/-- **What a run does with its settings** is the same whatever a variable holds, unless a path
refers to it. -/
theorem runWith_same (hsame : SameBut "VOS_CONFIG" env env')
    (hpaths : ∀ path ∈ hostPaths o s, Host.Spares "VOS_CONFIG" path) (input : String) :
    runWith (m := StateM H) env o s input = runWith env' o s input := by
  have hexpand : ∀ path ∈ hostPaths o s, Host.expand env path = Host.expand env' path :=
    fun path hpath => (hpaths path hpath).expand hsame (by decide) (by decide)
  have hsnapshot : snapshotPath? env o s = snapshotPath? env' o s := by
    have hstorage := hexpand s.storage.snapshot (by simp [hostPaths])
    unfold snapshotPath?
    cases hgiven : o.snapshot with
    | none => rw [hstorage]
    | some path =>
      have hoption := hexpand path (by simp [hostPaths, hgiven])
      simp only [hoption]
  have hhistory : historyPath? env s = historyPath? env' s := by
    have hfile := hexpand s.shell.history.file (by simp [hostPaths])
    unfold historyPath?
    rw [hfile]
  have hprompts : showsPrompts env = showsPrompts env' := by
    unfold showsPrompts
    rw [hsame.get? (by decide) (by decide)]
  unfold runWith runInput
  rw [hsnapshot, hhistory, hprompts]

/-- A run loads its settings, and goes on with them. -/
theorem run_loaded (hquiet : Quiet H) {arguments : List String}
    (hrun : parse arguments = .ok (.run o)) (input : String) :
    run (m := StateM H) arguments env input h =
      runWith (m := StateM H) env o (settingsOn env o h) input h := by
  have hload := Settings.load_reads hquiet env (o.config.or (env.get? "VOS_CONFIG")) h
  unfold run
  rw [hrun]
  simp only
  rw [bind_run hload, settingsOn_loaded hquiet]

/-- Runs that are told a file by an option are the same where the same is loaded from it, unless a
path refers to the variable. -/
theorem run_same (hquiet : Quiet H) (hsame : SameBut "VOS_CONFIG" env env')
    (hload : Settings.load (m := StateM H) env (some p) h =
      Settings.load (m := StateM H) env' (some p) h)
    {arguments : List String} (hrun : parse arguments = .ok (.run o)) (hconfig : o.config = some p)
    (hpaths : ∀ path ∈ hostPaths o (settingsOn env o h), Host.Spares "VOS_CONFIG" path)
    (input : String) :
    run (m := StateM H) arguments env input h = run (m := StateM H) arguments env' input h := by
  have hsettings : settingsOn env o h = settingsOn env' o h := by
    unfold settingsOn
    rw [hconfig, Option.some_or, Option.some_or, hload]
  rw [run_loaded hquiet hrun, run_loaded hquiet hrun, ← hsettings, runWith_same hsame hpaths]

/-- **Where the variable names a file, the option makes no difference.** -/
theorem run_overruled (hquiet : Quiet H) {q : String} (hq : env.get? "VOS_CONFIG" = some q)
    {arguments arguments' : List String} {config : Option String}
    (hrun : parse arguments = .ok (.run o)) (hrun' : parse arguments' = .ok (.run { o with config }))
    (input : String) :
    run (m := StateM H) arguments env input h = run (m := StateM H) arguments' env input h := by
  have hsource := Settings.source_of_set hq
  have hsettings : settingsOn env o h = settingsOn env { o with config } h := by
    unfold settingsOn
    rw [Settings.load_file hquiet (hsource _), Settings.load_file hquiet (hsource _)]
  rw [run_loaded hquiet hrun, run_loaded hquiet hrun', hsettings]
  rfl

/-- **A named file counts where the variable names no other one**, and only there.

If in two environments that differ in this variable it names no other file than `p`, then the
settings are the same where `p` is named, unless it refers to the variable; and so are the runs that
are told `p` by an option, unless a path refers to the variable.

But where the variable names a file `q`, that is loaded whatever is named, and the option makes no
difference to a run. So there `p` only counts if `q` says the same. -/
theorem named_overruled (hquiet : Quiet H) (hsame : SameBut "VOS_CONFIG" env env')
    (hspares : ∀ text, textAt p h = .ok text → Settings.Spares "VOS_CONFIG" text) :
    (chosen env p = p → chosen env' p = p →
      Settings.load (m := StateM H) env (some p) h = Settings.load (m := StateM H) env' (some p) h ∧
      ∀ arguments o, parse arguments = .ok (.run o) → o.config = some p →
        (∀ path ∈ hostPaths o (settingsOn env o h), Host.Spares "VOS_CONFIG" path) → ∀ input,
        run (m := StateM H) arguments env input h = run (m := StateM H) arguments env' input h) ∧
    (∀ q, env.get? "VOS_CONFIG" = some q →
      (∀ explicit, Settings.load (m := StateM H) env explicit h =
        (Settings.finish env (Settings.ofFile env q (textAt q h)), h)) ∧
      (env'.get? "VOS_CONFIG" = none →
        (∀ text, textAt q h = .ok text → Settings.Spares "VOS_CONFIG" text) →
        (Settings.load (m := StateM H) env (some p) h =
            Settings.load (m := StateM H) env' (some p) h ↔
          Settings.load (m := StateM H) env' (some q) h =
            Settings.load (m := StateM H) env' (some p) h)) ∧
      ∀ arguments arguments' o config, parse arguments = .ok (.run o) →
        parse arguments' = .ok (.run { o with config }) → ∀ input,
        run (m := StateM H) arguments env input h = run (m := StateM H) arguments' env input h) := by
  constructor
  · intro hchosen hchosen'
    have hload : Settings.load (m := StateM H) env (some p) h =
        Settings.load (m := StateM H) env' (some p) h := by
      refine Settings.load_same hquiet hsame (hchosen.trans hchosen'.symm) ?_
      rwa [hchosen]
    exact ⟨hload, fun arguments o hrun hconfig => run_same hquiet hsame hload hrun hconfig⟩
  · intro q hq
    refine ⟨fun explicit => Settings.load_file hquiet (Settings.source_of_set hq explicit) h, ?_, ?_⟩
    · intro hunset hother
      exact Settings.load_same_iff hquiet hsame hq hunset hother
    · intro arguments arguments' o config hrun hrun'
      exact run_overruled hquiet hq hrun hrun'

/-- A settings file that sets the prompt, and what it sets. -/
def promptText (prompt : String) : String := "shell: \x7bprompt: " ++ prompt ++ "\x7d\n"

def promptDraft (prompt : String) : Settings.Draft :=
  { Settings.Draft.blank with
    shell := some { Settings.ShellDraft.blank with prompt := some prompt } }

/-- A disk with two settings files. -/
def pairDisk : Host.Disk :=
  ((Host.Disk.blank "work").put ["work", "a.yaml"] (.file (promptText "a"))).put ["work", "b.yaml"]
    (.file (promptText "b"))

/-- An environment in which the variable names a file, and one without variables. -/
def naming (q : String) : Environment := { bindings := [("VOS_CONFIG", q)], accountHome := none }

def bare : Environment := { bindings := [], accountHome := none }

theorem naming_same (q : String) : SameBut "VOS_CONFIG" (naming q) bare :=
  ⟨by simp [naming, bare], rfl⟩

theorem bare_unset : Settings.Unset bare :=
  ⟨by decide, by decide, by decide, by decide, by decide⟩

theorem spares_read {read : Except Errno String} {text : String} (hread : read = .ok text)
    (hspares : Settings.Spares "VOS_CONFIG" text) :
    ∀ text, read = .ok text → Settings.Spares "VOS_CONFIG" text := by
  intro text' hread'
  rw [hread] at hread'
  rwa [← Except.ok.inj hread']

theorem pairDisk_spares_a :
    ∀ text, textAt "a.yaml" pairDisk = .ok text → Settings.Spares "VOS_CONFIG" text :=
  spares_read rfl (by decide : Settings.Spares "VOS_CONFIG" (promptText "a"))

theorem pairDisk_spares_b :
    ∀ text, textAt "b.yaml" pairDisk = .ok text → Settings.Spares "VOS_CONFIG" text :=
  spares_read rfl (by decide : Settings.Spares "VOS_CONFIG" (promptText "b"))

/-- What is loaded from a file that sets the prompt, where nothing else is set. -/
theorem load_prompt {path prompt : String} (hextension : Host.extension? path ≠ some "json")
    (hread : textAt path pairDisk = .ok (promptText prompt))
    (hparse : Settings.Draft.ofYaml? (Settings.fill bare (promptText prompt)) =
      some (promptDraft prompt)) :
    Settings.load (m := StateM Host.Disk) bare (some path) pairDisk =
      (.ok (promptDraft prompt).complete, pairDisk) := by
  have hchosen : chosen bare path = path := rfl
  have hcore : (promptDraft prompt).complete.boot.corePath = "/sys/core.json" := rfl
  have hcheck : (promptDraft prompt).complete.check = .ok (promptDraft prompt).complete := by
    unfold Settings.check
    rw [hcore]
    rfl
  rw [Settings.load_file Host.disk_quiet (Settings.source_some bare path), hchosen, hread]
  unfold Settings.ofFile Settings.finish
  simp only [Except.mapError, bind, Except.bind, Settings.ofFile_yaml hextension hparse,
    bare_unset.adjust, hcheck]

theorem load_prompt_a : Settings.load (m := StateM Host.Disk) bare (some "a.yaml") pairDisk =
    (.ok (promptDraft "a").complete, pairDisk) :=
  load_prompt (by decide) rfl (by decide +kernel)

theorem load_prompt_b : Settings.load (m := StateM Host.Disk) bare (some "b.yaml") pairDisk =
    (.ok (promptDraft "b").complete, pairDisk) :=
  load_prompt (by decide) rfl (by decide +kernel)

/-- The prompts differ, and so do the settings in the two files. -/
theorem load_prompts_ne : Settings.load (m := StateM Host.Disk) bare (some "b.yaml") pairDisk ≠
    Settings.load (m := StateM Host.Disk) bare (some "a.yaml") pairDisk := by
  rw [load_prompt_a, load_prompt_b]
  intro h
  have hsettings := Except.ok.inj (congrArg Prod.fst h)
  have hprompt : "b" = "a" := congrArg (·.shell.prompt) hsettings
  exact absurd hprompt (by decide)

/-- A file named by an option and by the variable, and another one named by the variable. -/
theorem named_overruled_pair :
    let named := ["--config", "a.yaml", "--ephemeral", "-c", "pwd"]
    (Quiet Host.Disk ∧ (∀ q, SameBut "VOS_CONFIG" (naming q) bare) ∧
      ∀ text, textAt "a.yaml" pairDisk = .ok text → Settings.Spares "VOS_CONFIG" text) ∧
    (Settings.load (m := StateM Host.Disk) (naming "a.yaml") (some "a.yaml") pairDisk =
        Settings.load (m := StateM Host.Disk) bare (some "a.yaml") pairDisk ∧
      ∀ input, run (m := StateM Host.Disk) named (naming "a.yaml") input pairDisk =
        run (m := StateM Host.Disk) named bare input pairDisk) ∧
    Settings.load (m := StateM Host.Disk) (naming "b.yaml") (some "a.yaml") pairDisk ≠
        Settings.load (m := StateM Host.Disk) bare (some "a.yaml") pairDisk ∧
      ∀ input, run (m := StateM Host.Disk) named (naming "b.yaml") input pairDisk =
        run (m := StateM Host.Disk) ["--ephemeral", "-c", "pwd"] (naming "b.yaml") input pairDisk := by
  intro named
  let options : Options := ⟨some "pwd", some "a.yaml", none, true⟩
  have hrun : parse named = .ok (.run options) := rfl
  have hpaths : ∀ path ∈ hostPaths options (settingsOn (naming "a.yaml") options pairDisk),
      Host.Spares "VOS_CONFIG" path := by
    have hload : Settings.load (m := StateM Host.Disk) (naming "a.yaml") (some "a.yaml") pairDisk =
        (.ok (promptDraft "a").complete, pairDisk) := by
      rw [← load_prompt_a]
      exact Settings.load_same Host.disk_quiet (naming_same _) rfl pairDisk_spares_a
    have hsettings : settingsOn (naming "a.yaml") options pairDisk = (promptDraft "a").complete :=
      congrArg (·.1.toOption.getD .builtIn) hload
    rw [hsettings]
    decide
  obtain ⟨hsame, -⟩ := named_overruled Host.disk_quiet (naming_same "a.yaml") pairDisk_spares_a
  obtain ⟨hload, hruns⟩ := hsame rfl rfl
  obtain ⟨-, hother⟩ := named_overruled Host.disk_quiet (naming_same "b.yaml") pairDisk_spares_a
  obtain ⟨-, hiff, hoption⟩ := hother "b.yaml" (by decide)
  refine ⟨⟨Host.disk_quiet, naming_same, pairDisk_spares_a⟩,
    ⟨hload, hruns named options hrun rfl hpaths⟩, ?_, ?_⟩
  · rw [Ne, hiff rfl pairDisk_spares_b]
    exact load_prompts_ne
  · exact hoption named ["--ephemeral", "-c", "pwd"] options none hrun rfl

/-- **The named file does not always win.** In two environments that differ in the variable only,
where the named file does not refer to it, other settings are loaded: those of the file that the
variable names. -/
theorem named_lost :
    SameBut "VOS_CONFIG" (naming "b.yaml") bare ∧
    (∀ text, textAt "a.yaml" pairDisk = .ok text → Settings.Spares "VOS_CONFIG" text) ∧
    Settings.load (m := StateM Host.Disk) (naming "b.yaml") (some "a.yaml") pairDisk =
      (.ok (promptDraft "b").complete, pairDisk) ∧
    Settings.load (m := StateM Host.Disk) bare (some "a.yaml") pairDisk =
      (.ok (promptDraft "a").complete, pairDisk) ∧
    Settings.load (m := StateM Host.Disk) (naming "b.yaml") (some "a.yaml") pairDisk ≠
      Settings.load (m := StateM Host.Disk) bare (some "a.yaml") pairDisk := by
  have hother : Settings.load (m := StateM Host.Disk) (naming "b.yaml") (some "a.yaml") pairDisk =
      Settings.load (m := StateM Host.Disk) bare (some "b.yaml") pairDisk :=
    Settings.load_same Host.disk_quiet (naming_same _) rfl pairDisk_spares_b
  refine ⟨naming_same _, pairDisk_spares_a, ?_, load_prompt_a, ?_⟩
  · rw [hother, load_prompt_b]
  · rw [hother]
    exact load_prompts_ne

end Cli

end TreeShell
