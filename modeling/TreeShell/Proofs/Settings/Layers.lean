import TreeShell.Proofs.Host.Quiet
import TreeShell.Settings.Load

/-!
# What becomes of each setting

Files are laid over each other section by section, and a section counts only if it differs from the
built-in one. What that does to a single setting is seen on the settings one by one.

* `Setting`, `Draft.given?`, `Settings.get`: a setting, what a file gives for it, and its value.
* `overlay_get`: of two layers, a setting comes as a whole section from one.
* `Gives`: what a file that is looked for sets on a host. `load_drafts`: what is loaded from such
  files.
* `load_layers`: **what each setting is**, and when that is what the last file that gives it says.
-/

namespace TreeShell.Settings

/-! ## The settings one by one -/

/-- A section of the settings. -/
inductive Part
  | shell
  | boot
  | storage
  | logging
deriving DecidableEq

/-- A single setting. -/
inductive Setting
  | prompt | loopDelay | historyEnabled | historyFile | historyEntries | corePath | snapshot
  | level | format | filter
deriving DecidableEq

namespace Setting

/-- The section that holds a setting. -/
def part : Setting → Part
  | prompt | loopDelay | historyEnabled | historyFile | historyEntries => .shell
  | corePath => .boot
  | snapshot => .storage
  | level | format | filter => .logging

/-- The values that a setting can have. -/
def Value : Setting → Type
  | prompt | historyFile | corePath | snapshot | filter => String
  | loopDelay | historyEntries => Nat
  | historyEnabled => Bool
  | level => LogLevel
  | format => LogFormat

end Setting

/-- The value of a setting. -/
def get (s : Settings) : (x : Setting) → x.Value
  | .prompt => s.shell.prompt
  | .loopDelay => s.shell.loopDelay
  | .historyEnabled => s.shell.history.enabled
  | .historyFile => s.shell.history.file
  | .historyEntries => s.shell.history.maxEntries
  | .corePath => s.boot.corePath
  | .snapshot => s.storage.snapshot
  | .level => s.logging.level
  | .format => s.logging.format
  | .filter => s.logging.filter

/-- What a file gives for a setting. -/
def Draft.given? (d : Draft) : (x : Setting) → Option x.Value
  | .prompt => d.shell.bind (·.prompt)
  | .loopDelay => d.shell.bind (·.loopDelay)
  | .historyEnabled => (d.shell.bind (·.history)).bind (·.enabled)
  | .historyFile => (d.shell.bind (·.history)).bind (·.file)
  | .historyEntries => (d.shell.bind (·.history)).bind (·.maxEntries)
  | .corePath => d.boot.bind (·.corePath)
  | .snapshot => d.storage.bind (·.snapshot)
  | .level => d.logging.bind (·.level)
  | .format => d.logging.bind (·.format)
  | .filter => d.logging.bind (·.filter)

theorem complete_get (d : Draft) (x : Setting) :
    d.complete.get x = (d.given? x).getD (builtIn.get x) := by
  obtain ⟨shell, boot, storage, logging⟩ := d
  cases x with
  | prompt | loopDelay => cases shell <;> rfl
  | historyEnabled | historyFile | historyEntries =>
    cases shell with
    | none => rfl
    | some shell =>
      obtain ⟨prompt, loopDelay, history⟩ := shell
      cases history <;> rfl
  | corePath => cases boot <;> rfl
  | snapshot => cases storage <;> rfl
  | level | format | filter => cases logging <;> rfl

/-! ## Two layers -/

/-- A section in which every setting is as built in. -/
def Plain (s : Settings) (p : Part) : Prop := ∀ x : Setting, x.part = p → s.get x = builtIn.get x

theorem shell_plain {s : Settings} : s.shell = .builtIn ↔ s.Plain .shell := by
  constructor
  · intro hs x hx
    cases x with
    | prompt | loopDelay | historyEnabled | historyFile | historyEntries =>
      unfold get
      rw [hs]
      rfl
    | corePath | snapshot | level | format | filter => cases hx
  · obtain ⟨⟨prompt, loopDelay, ⟨enabled, file, maxEntries⟩⟩, boot, storage, logging⟩ := s
    intro hs
    have hprompt : prompt = _ := hs .prompt rfl
    have hdelay : loopDelay = _ := hs .loopDelay rfl
    have henabled : enabled = _ := hs .historyEnabled rfl
    have hfile : file = _ := hs .historyFile rfl
    have hentries : maxEntries = _ := hs .historyEntries rfl
    rw [hprompt, hdelay, henabled, hfile, hentries]
    rfl

theorem boot_plain {s : Settings} : s.boot = .builtIn ↔ s.Plain .boot := by
  constructor
  · intro hs x hx
    cases x with
    | corePath => exact congrArg Start.corePath hs
    | _ => cases hx
  · intro hs
    have hpath : s.boot.corePath = _ := hs .corePath rfl
    exact congrArg Start.mk hpath

theorem storage_plain {s : Settings} : s.storage = .builtIn ↔ s.Plain .storage := by
  constructor
  · intro hs x hx
    cases x with
    | snapshot => exact congrArg Storage.snapshot hs
    | _ => cases hx
  · intro hs
    have hpath : s.storage.snapshot = _ := hs .snapshot rfl
    exact congrArg Storage.mk hpath

theorem logging_plain {s : Settings} : s.logging = .builtIn ↔ s.Plain .logging := by
  constructor
  · intro hs x hx
    cases x with
    | level => exact congrArg Logging.level hs
    | format => exact congrArg Logging.format hs
    | filter => exact congrArg Logging.filter hs
    | _ => cases hx
  · obtain ⟨shell, boot, storage, ⟨level, format, filter⟩⟩ := s
    intro hs
    have hlevel : level = _ := hs .level rfl
    have hformat : format = _ := hs .format rfl
    have hfilter : filter = _ := hs .filter rfl
    rw [hlevel, hformat, hfilter]
    rfl

/-- **Of two layers, a setting comes as a whole section from one**: from the lower one if the section
of the upper one is plain, and else from the upper one. -/
theorem overlay_get (lower upper : Settings) (x : Setting) :
    (upper.Plain x.part → (lower.overlay upper).get x = lower.get x) ∧
      (¬ upper.Plain x.part → (lower.overlay upper).get x = upper.get x) := by
  have hpick : ∀ {α : Type} [DecidableEq α] {b l u : α} {p : Prop}, (u = b ↔ p) →
      (p → pick b l u = l) ∧ (¬ p → pick b l u = u) :=
    fun h => ⟨fun hp => if_pos (h.2 hp), fun hp => if_neg fun hu => hp (h.1 hu)⟩
  -- by the section of the setting: the layers are compared there as wholes
  cases x with
  | prompt | loopDelay | historyEnabled | historyFile | historyEntries =>
    have hshell := hpick (l := lower.shell) (shell_plain (s := upper))
    constructor <;> intro hp <;> unfold get overlay
    · rw [hshell.1 hp]
    · rw [hshell.2 hp]
  | corePath =>
    have hboot := hpick (l := lower.boot) (boot_plain (s := upper))
    exact ⟨fun hp => congrArg Start.corePath (hboot.1 hp),
      fun hp => congrArg Start.corePath (hboot.2 hp)⟩
  | snapshot =>
    have hstorage := hpick (l := lower.storage) (storage_plain (s := upper))
    exact ⟨fun hp => congrArg Storage.snapshot (hstorage.1 hp),
      fun hp => congrArg Storage.snapshot (hstorage.2 hp)⟩
  | level | format | filter =>
    have hlogging := hpick (l := lower.logging) (logging_plain (s := upper))
    constructor <;> intro hp <;> unfold get overlay
    · rw [hlogging.1 hp]
    · rw [hlogging.2 hp]

theorem pick_builtIn {α : Type} [DecidableEq α] (b u : α) : pick b b u = u := by
  unfold pick
  split
  · rename_i hu
    exact hu.symm
  · rfl

/-- A layer in which nothing is set changes nothing. -/
theorem overlay_builtIn (lower : Settings) : lower.overlay builtIn = lower := by
  have hpick : ∀ {α : Type} [DecidableEq α] (b l : α), pick b l b = l := fun b l => if_pos rfl
  unfold overlay builtIn
  simp only [hpick]

theorem builtIn_overlay (upper : Settings) : builtIn.overlay upper = upper := by
  unfold overlay builtIn
  simp only [pick_builtIn]

/-! ## Files on a host -/

open Host

variable {H : Type} [Host (StateM H)]

/-- The files that are there, and what comes of reading them. -/
def layersAt (h : H) (paths : List String) : List (String × Except Errno String) :=
  (paths.filter (isThere · h)).map fun path => (path, textAt path h)

/-- The settings of a run, as they are read off the host. -/
def loaded (env : Environment) (explicit : Option String) (h : H) : Except Fault Settings :=
  match source env explicit with
  | .file path => finish env (ofFile env path (textAt path h))
  | .layers paths => finish env (ofLayers env .builtIn (layersAt h paths))

/-- **Loading the settings only reads the host.** -/
theorem load_reads (hquiet : Quiet H) (env : Environment) (explicit : Option String) :
    Reads (load (m := StateM H) env explicit) (loaded env explicit) := by
  unfold load loaded
  cases source env explicit with
  | file path =>
    exact (hquiet.readText path).bind fun text => .pure (finish env (ofFile env path text))
  | layers paths =>
    have hlayer : ∀ path, Reads (readLayer (m := StateM H) path) fun h => (path, textAt path h) :=
      fun path => (hquiet.readText path).bind fun text => .pure (path, text)
    have hlayers : ∀ found : List String, Reads (do
        let layers ← found.mapM (readLayer (m := StateM H))
        return finish env (ofLayers env .builtIn layers))
          fun h => finish env (ofLayers env .builtIn (found.map fun path => (path, textAt path h))) :=
      fun found => (Reads.mapM hlayer found).bind fun layers => .pure _
    exact (Reads.filterM hquiet.exists? paths).bind hlayers

/-- What a file that is looked for sets. One that is not there sets nothing. -/
inductive Gives (env : Environment) (h : H) (path : String) : Draft → Prop
  | absent (hnone : isThere path h = false) : Gives env h path .blank
  | parsed {text : String} {d : Draft} (hthere : isThere path h = true)
      (hread : textAt path h = .ok text) (hparse : Draft.ofFile env path text = .ok d) :
      Gives env h path d

/-- What the file of the user sets, if there is a place for one. -/
def UserGives (env : Environment) (h : H) (d : Draft) : Prop :=
  match userDirectory? env with
  | some directory => Gives env h (join directory "vos/vos.yaml") d
  | none => d = .blank

variable {env : Environment} {h : H} {user project d : Draft} {path : String}

/-- One file that is looked for, over those before it. -/
theorem Gives.ofLayers (hgives : Gives env h path d) (lower : Settings) (paths : List String) :
    Settings.ofLayers env lower (layersAt h (path :: paths)) =
      Settings.ofLayers env (lower.overlay d.complete) (layersAt h paths) := by
  cases hgives with
  | absent hnone =>
    have hblank : lower.overlay Draft.blank.complete = lower := overlay_builtIn lower
    have hskip : layersAt h (path :: paths) = layersAt h paths :=
      congrArg (List.map _) (List.filter_cons_of_neg (by simp [hnone]))
    rw [hskip, hblank]
  | @parsed text _ hthere hread hparse =>
    have hkeep : layersAt h (path :: paths) = (path, .ok text) :: layersAt h paths := by
      unfold layersAt
      rw [List.filter_cons_of_pos (by exact hthere), List.map_cons, hread]
    have hfile : Settings.ofFile env path (.ok text) = .ok d.complete := by
      have hbind : Settings.ofFile env path (.ok text) =
        (Draft.ofFile env path text).bind fun d => .ok d.complete := rfl
      rw [hbind, hparse]
      rfl
    rw [hkeep, Settings.ofLayers, hfile]
    rfl

/-- The variables that set something are not set. -/
structure Unset (env : Environment) : Prop where
  config : env.get? "VOS_CONFIG" = none
  level : env.get? "VOS_LOG_LEVEL" = none
  snapshot : env.get? "VOS_SNAPSHOT" = none
  loopDelay : env.get? "VOS_LOOP_DELAY_MS" = none
  corePath : env.get? "VOS_CORE_PATH" = none

theorem Unset.adjust (hunset : Unset env) (s : Settings) : s.adjust env = s := by
  unfold Settings.adjust
  rw [hunset.level, hunset.snapshot, hunset.loopDelay, hunset.corePath]
  rfl

/-- **What is loaded** from the file of the user and that of the project. -/
theorem load_drafts (hquiet : Quiet H) (hunset : Unset env)
    (hsystem : isThere "/etc/vos/vos.yaml" h = false) (huser : UserGives env h user)
    (hproject : Gives env h "./vos.yaml" project) :
    load (m := StateM H) env none h = (check (user.complete.overlay project.complete), h) := by
  have hsource : source env none = .layers (searchPaths env) := by
    unfold source
    rw [hunset.config]
    rfl
  have hlayers : Settings.ofLayers env builtIn (layersAt h (searchPaths env)) =
      .ok (user.complete.overlay project.complete) := by
    have hblank : builtIn.overlay Draft.blank.complete = builtIn := overlay_builtIn builtIn
    unfold searchPaths
    rw [List.cons_append, (Gives.absent hsystem).ofLayers, hblank]
    unfold UserGives at huser
    cases hdirectory : userDirectory? env with
    | none =>
      -- only the file of the project is looked for
      rw [hdirectory] at huser
      obtain rfl : user = .blank := huser
      have hnothing : Draft.blank.complete = builtIn := rfl
      show Settings.ofLayers env builtIn _ = _
      rw [hnothing]
      exact hproject.ofLayers builtIn []
    | some directory =>
      rw [hdirectory] at huser
      show Settings.ofLayers env builtIn (layersAt h (_ :: ["./vos.yaml"])) = _
      rw [Gives.ofLayers huser, builtIn_overlay]
      exact hproject.ofLayers user.complete []
  rw [load_reads hquiet env none h]
  unfold loaded
  rw [hsource]
  simp only [hlayers, finish, bind, Except.bind, hunset.adjust]

/-- A file that gives something else than the built-in value for a setting of the section. -/
def Draft.Marks (d : Draft) (p : Part) : Prop :=
  ∃ x : Setting, x.part = p ∧ (d.given? x).getD (builtIn.get x) ≠ builtIn.get x

theorem plain_iff (d : Draft) (p : Part) : d.complete.Plain p ↔ ¬ d.Marks p := by
  unfold Plain Draft.Marks
  simp only [complete_get, not_exists, not_and, ne_eq, Classical.not_not]

/-! ## The last file that gives a setting -/

/-- The value of a setting in the last of two files that gives it. -/
def lastGiven (user project : Draft) (x : Setting) : x.Value :=
  ((project.given? x).or (user.given? x)).getD (builtIn.get x)

/-- **What each setting is.** In a section that the file of the project marks, it is what that file
gives, or the built-in value; in any other it is what the file of the user gives, or the built-in
value. That is what the last file that gives it says exactly if the user gives nothing but the
built-in value, or the project gives it in a section that it marks, or does neither. -/
theorem load_layers (hquiet : Quiet H) (hunset : Unset env)
    (hsystem : isThere "/etc/vos/vos.yaml" h = false) (huser : UserGives env h user)
    (hproject : Gives env h "./vos.yaml" project) :
    ∃ s, load (m := StateM H) env none h = (check s, h) ∧ ∀ x : Setting,
      (project.Marks x.part → s.get x = (project.given? x).getD (builtIn.get x)) ∧
      (¬ project.Marks x.part → s.get x = (user.given? x).getD (builtIn.get x)) ∧
      (s.get x = lastGiven user project x ↔
        (user.given? x).getD (builtIn.get x) = builtIn.get x ∨
          ((project.given? x).isSome ↔ project.Marks x.part)) := by
  refine ⟨_, load_drafts hquiet hunset hsystem huser hproject, fun x => ?_⟩
  obtain ⟨hplain, hmarked⟩ := overlay_get user.complete project.complete x
  rw [plain_iff, complete_get] at hplain hmarked
  have hmarks : project.Marks x.part →
      (user.complete.overlay project.complete).get x = (project.given? x).getD (builtIn.get x) :=
    fun h => hmarked fun hn => hn h
  refine ⟨hmarks, hplain, ?_⟩
  unfold lastGiven
  by_cases hmark : project.Marks x.part
  -- the section is that of the project, so what only the user gives is lost
  · rw [hmarks hmark]
    cases hgiven : project.given? x with
    | some value => simp [hmark]
    | none => simp [hmark, eq_comm]
  · rw [hplain hmark]
    cases hgiven : project.given? x with
    | some value =>
      -- what the project gives here is the built-in value
      have hvalue : value = builtIn.get x :=
        Classical.byContradiction fun hne => hmark ⟨x, rfl, by rwa [hgiven]⟩
      simp [hmark, hvalue]
    | none => simp [hmark]

def userText : String := "shell: \x7bprompt: 'user'\x7d\nstorage: \x7bsnapshot: x\x7d\n"

def projectText : String :=
  "shell: \x7bloop_delay_ms: 9\x7d\nstorage: \x7bsnapshot: '~/.local/share/vos/fs.json'\x7d\n"

/-- A disk with a file of the user and one of the project. -/
def layeredDisk : Disk :=
  (((((Disk.blank "work").put ["home"] .dir).put ["home", ".config"] .dir).put
    ["home", ".config", "vos"] .dir).put ["home", ".config", "vos", "vos.yaml"]
      (.file userText)).put ["work", "vos.yaml"] (.file projectText)

def homeEnv : Environment := { bindings := [("HOME", "/home")], accountHome := none }

/-- What the file of the user sets there. -/
def userDraft : Draft :=
  { Draft.blank with
    shell := some { ShellDraft.blank with prompt := some "user" }
    storage := some { snapshot := some "x" } }

/-- What the file of the project sets there. -/
def projectDraft : Draft :=
  { Draft.blank with
    shell := some { ShellDraft.blank with loopDelay := some 9 }
    storage := some { snapshot := some "~/.local/share/vos/fs.json" } }

theorem ofFile_yaml {text : String} (hpath : extension? path ≠ some "json")
    (hparse : Draft.ofYaml? (fill env text) = some d) : Draft.ofFile env path text = .ok d := by
  unfold Draft.ofFile
  rw [if_neg hpath, hparse]

theorem homeEnv_unset : Unset homeEnv := ⟨by decide, by decide, by decide, by decide, by decide⟩

theorem layeredDisk_user : UserGives homeEnv layeredDisk userDraft := by
  have hdirectory : userDirectory? homeEnv = some "/home/.config" := by decide
  have hpath : join "/home/.config" "vos/vos.yaml" = "/home/.config/vos/vos.yaml" := by decide
  have hread : textAt "/home/.config/vos/vos.yaml" layeredDisk = .ok userText := rfl
  have hparse : Draft.ofYaml? (fill homeEnv userText) = some userDraft := by decide +kernel
  unfold UserGives
  rw [hdirectory]
  show Gives homeEnv layeredDisk (join "/home/.config" "vos/vos.yaml") userDraft
  rw [hpath]
  exact .parsed rfl hread (ofFile_yaml (by decide) hparse)

theorem layeredDisk_project : Gives homeEnv layeredDisk "./vos.yaml" projectDraft := by
  have hread : textAt "./vos.yaml" layeredDisk = .ok projectText := rfl
  have hparse : Draft.ofYaml? (fill homeEnv projectText) = some projectDraft := by decide +kernel
  exact .parsed rfl hread (ofFile_yaml (by decide) hparse)

theorem layeredDisk_system : isThere "/etc/vos/vos.yaml" layeredDisk = false := rfl

/-- The project marks the section of the session by its delay, and that of the storage by nothing. -/
theorem load_layers_both :
    (Quiet Disk ∧ Unset homeEnv ∧ isThere "/etc/vos/vos.yaml" layeredDisk = false ∧
      UserGives homeEnv layeredDisk userDraft ∧
      Gives homeEnv layeredDisk "./vos.yaml" projectDraft) ∧
    ∃ s, load (m := StateM Disk) homeEnv none layeredDisk = (check s, layeredDisk) ∧
      s.get .loopDelay = (9 : Nat) ∧ s.get .prompt = defaultPrompt ∧ s.get .snapshot = "x" := by
  refine ⟨⟨disk_quiet, homeEnv_unset, layeredDisk_system, layeredDisk_user, layeredDisk_project⟩, ?_⟩
  obtain ⟨s, hload, hget⟩ :=
    load_layers disk_quiet homeEnv_unset layeredDisk_system layeredDisk_user layeredDisk_project
  have hshell : projectDraft.Marks .shell := ⟨.loopDelay, rfl, (by decide : (9 : Nat) ≠ 100)⟩
  have hstorage : ¬ projectDraft.Marks .storage := by
    rintro ⟨x, hx, hne⟩
    cases x with
    | snapshot => exact hne rfl
    | _ => cases hx
  exact ⟨s, hload, (hget .loopDelay).1 hshell, (hget .prompt).1 hshell,
    (hget .snapshot).2.1 hstorage⟩

/-- **The last file that gives a setting does not always count.** The prompt of the user is lost to
another setting of the project, and the file of the snapshot that the project names is that of the
user, because it is the built-in one. -/
theorem lastGiven_lost :
    UserGives homeEnv layeredDisk userDraft ∧
    Gives homeEnv layeredDisk "./vos.yaml" projectDraft ∧
    ∃ s, load (m := StateM Disk) homeEnv none layeredDisk = (.ok s, layeredDisk) ∧
      s.get .prompt ≠ lastGiven userDraft projectDraft .prompt ∧
      s.get .snapshot ≠ lastGiven userDraft projectDraft .snapshot := by
  refine ⟨layeredDisk_user, layeredDisk_project, userDraft.complete.overlay projectDraft.complete,
    ?_, ?_, ?_⟩
  · rw [load_drafts disk_quiet homeEnv_unset layeredDisk_system layeredDisk_user
      layeredDisk_project]
    rfl
  · show defaultPrompt ≠ "user"
    decide
  · show "x" ≠ "~/.local/share/vos/fs.json"
    decide

end TreeShell.Settings
