import TreeShell.Proofs.Image.RoundTrip
import TreeShell.Proofs.Store.Change
import TreeShell.Session.Boot

/-!
# What a start does

A start looks for the image, writes the canonical one if there is nothing at all, and makes a
session of what it then finds. Nothing else of the tree is touched.

* `install_present`, `install_open`, `install_blocked`: the three outcomes of an installation.
* `start_cases`: a start by the image that is found after the installation.
* `start_refused`: a start over a file that gives no sound image, and what it says.
* `start_protocol`: **what a start does to the tree, and when it gives which session.** A store that
  had no image keeps the canonical one through any number of starts.
-/

namespace TreeShell.Boot

open TreeShell.Path Store

/-- A sound image is kept at a path: its text gives an image with its own checksum. -/
def Sound (t : Tree) (p : String) (i : Image) : Prop :=
  ∃ text, t.get? p = some (.file text) ∧ Image.ofJson text = .ok i ∧ i.verify = .ok ()

/-- What a start reports in the end if it gives no session. -/
def refusal (f : Failure) : Event := .error ("Error loading or executing OS core: " ++ f.message)

/-- A start gives a session, and that may run exactly the given commands. -/
def Enables (b : Boot) (m : Machine Tree) (commands : List String) : Prop :=
  ∃ s, (b.start m).1 = some s ∧ ∀ x, s.isEnabled x = true ↔ x ∈ commands

variable {b : Boot} {m : Machine Tree} {i : Image}

/-! ## The installation -/

theorem install_present (h : m.store.get? (canonical b.corePath) ≠ none) :
    b.install m = (.alreadyPresent, m.say "OS core already exists.") := by
  have hhas : Backend.has b.corePath m.store = (true, m.store) :=
    Prod.ext (Option.isSome_iff_ne_none.mpr h) rfl
  unfold install
  rw [hhas]

theorem has_absent (h : m.store.get? (canonical b.corePath) = none) :
    Backend.has b.corePath m.store = (false, m.store) :=
  Prod.ext (Option.isSome_eq_false_iff.mpr (Option.isNone_iff_eq_none.mpr h)) rfl

theorem install_open (ht : TreeOK m.store) (h : m.store.get? (canonical b.corePath) = none)
    (ho : m.store.Open (canonical b.corePath)) :
    b.install m = (.created,
      { m.say "Creating OS core..." with
        store := m.store.plant (canonical b.corePath) (.file Image.canonical.toJson) }.say
          "OS core created successfully.") := by
  have hwrite : Backend.write b.corePath Image.canonical.toJson m.store =
      (.ok (), m.store.plant (canonical b.corePath) (.file Image.canonical.toJson)) :=
    congrArg m.store.commit (write_of_open ht (by rw [h]; simp) ho)
  unfold install
  rw [has_absent h]
  simp only [Machine.say, hwrite]

theorem install_blocked (ht : TreeOK m.store) (h : m.store.get? (canonical b.corePath) = none)
    (ho : ¬ m.store.Open (canonical b.corePath)) :
    ∃ f : Fault, b.install m = (.failed,
      (m.say "Creating OS core...").warn ("Error creating OS core: " ++ f.message)) := by
  have hnone : ∀ t', m.store.write b.corePath Image.canonical.toJson ≠ .ok t' :=
    fun t' hok => ho ((write_ok ht).mp hok).2.1
  cases hw : m.store.write b.corePath Image.canonical.toJson with
  | ok t' => exact absurd hw (hnone t')
  | error f =>
    have hwrite : Backend.write b.corePath Image.canonical.toJson m.store = (.error f, m.store) :=
      congrArg m.store.commit hw
    refine ⟨f, ?_⟩
    unfold install
    rw [has_absent h]
    simp only [Machine.say, hwrite]

theorem install_treeOK (b : Boot) (ht : TreeOK m.store) : TreeOK (b.install m).2.store := by
  by_cases h : m.store.get? (canonical b.corePath) = none
  · by_cases ho : m.store.Open (canonical b.corePath)
    · rw [install_open ht h ho]
      exact ht.plant (canonical_canonical _) fun hd => by rw [h] at hd; cases hd
    · obtain ⟨f, hf⟩ := install_blocked ht h ho
      rw [hf]
      exact ht
  · rw [install_present h]
    exact ht

theorem refusal_ne_line (f : Failure) (text : String) : refusal f ≠ .line text := by
  simp [refusal]

theorem refusal_ne_creating (f : Failure) (text : String) :
    refusal f ≠ .error ("Error creating OS core: " ++ text) := by
  -- the seventh letter tells a failed installation from a refused start
  intro h
  have hletter := congrArg (fun s => s.toList[6]?) (Event.error.inj h)
  simp at hletter

/-- An installation adds some events to the record, none of which says that a start was refused. -/
theorem install_events (b : Boot) (ht : TreeOK m.store) :
    ∃ new, (b.install m).2.terminal = ⟨m.terminal.input, m.terminal.events ++ new⟩ ∧
      ∀ f, refusal f ∉ new := by
  by_cases h : m.store.get? (canonical b.corePath) = none
  · by_cases ho : m.store.Open (canonical b.corePath)
    · rw [install_open ht h ho]
      refine ⟨[.line "Creating OS core...", .line "OS core created successfully."], ?_, ?_⟩
      · simp [Machine.say, Terminal.writeLine, Terminal.record]
      · simp [refusal_ne_line]
    · obtain ⟨f, hf⟩ := install_blocked ht h ho
      rw [hf]
      refine ⟨[.line "Creating OS core...",
        .error ("Error creating OS core: " ++ f.message)], ?_, ?_⟩
      · simp [Machine.say, Machine.warn, Terminal.writeLine, Terminal.writeError, Terminal.record]
      · simp [refusal_ne_line, refusal_ne_creating]
  · rw [install_present h]
    refine ⟨[.line "OS core already exists."], rfl, ?_⟩
    simp [refusal_ne_line]

/-! ## The start -/

/-- Loading changes nothing, and gives the sound image there is. -/
theorem load_cases (b : Boot) (m : Machine Tree) :
    ∃ r, b.load m = (r, m.say "Loading OS core...") ∧
      ∀ i, r = .ok i ↔ Sound m.store (canonical b.corePath) i := by
  have hread : Backend.read b.corePath m.store = (m.store.read b.corePath, m.store) := rfl
  unfold load Sound
  simp only [Machine.say, hread]
  cases hm : m.store.read b.corePath with
  | error f =>
    refine ⟨.error (.store f), rfl, fun i => ⟨fun h => (nomatch h), ?_⟩⟩
    rintro ⟨text, htext, -⟩
    rw [read_ok.mpr htext] at hm
    cases hm
  | ok text =>
    refine ⟨(Image.load text).mapError Failure.image, rfl, fun i => ?_⟩
    have hfile := read_ok.mp hm
    have hload : (Image.load text).mapError Failure.image = .ok i ↔ Image.load text = .ok i := by
      cases Image.load text with
      | error f => exact ⟨fun h => (nomatch h), fun h => (nomatch h)⟩
      | ok j => exact ⟨fun h => congrArg _ (Except.ok.inj h), fun h => congrArg _ (Except.ok.inj h)⟩
    rw [hload, Image.load_ok, hfile]
    constructor
    · exact fun h => ⟨text, rfl, h⟩
    · rintro ⟨text', heq, h⟩
      cases heq
      exact h

/-- **A start by what is found after the installation**: a session of the sound image there is, or
none and a last event that says so. -/
theorem start_cases (b : Boot) (m : Machine Tree) :
    let m' := (b.install (m.say "Bootloader starting...")).2
    let p := canonical b.corePath
    (∃ i, Sound m'.store p i ∧
      let m'' := (m'.say "Loading OS core...").say "OS core loaded. Executing..."
      b.start m = (some (m''.session i.commands b.prompt), m'')) ∨
    ((∀ i, ¬ Sound m'.store p i) ∧ ∃ f,
      b.start m = (none, { m'.say "Loading OS core..." with
        terminal := (m'.say "Loading OS core...").terminal.record (refusal f) })) := by
  intro m' p
  obtain ⟨r, hload, hsound⟩ := load_cases b m'
  unfold start
  simp only [m'] at hload ⊢
  simp only [hload]
  cases r with
  | ok i => exact .inl ⟨i, (hsound i).mp rfl, rfl⟩
  | error f => exact .inr ⟨fun i hi => (nomatch (hsound i).mpr hi), f, rfl⟩

/-- A start over a file that gives no sound image says why. -/
theorem start_refused {text : String} {f : Image.Fault}
    (h : m.store.get? (canonical b.corePath) = some (.file text))
    (hf : Image.load text = .error f) :
    let m' := (m.say "Bootloader starting...").say "OS core already exists."
    b.start m = (none, (m'.say "Loading OS core...").warn
      ("Error loading or executing OS core: " ++ (Failure.image f).message)) := by
  intro m'
  have hpresent : m.store.get? (canonical b.corePath) ≠ none := by
    rw [h]
    exact Option.some_ne_none _
  have hinstall : b.install (m.say "Bootloader starting...") = (.alreadyPresent, m') :=
    install_present hpresent
  have hread : Backend.read b.corePath m'.store = (.ok text, m'.store) :=
    congrArg (·, m'.store) (read_ok.mpr h)
  have hload : b.load m' = (.error (.image f), m'.say "Loading OS core...") := by
    unfold load
    simp only [Machine.say, hread, hf]
    rfl
  unfold start
  rw [hinstall]
  simp only [hload]

theorem Sound.unique {t : Tree} {p : String} {i j : Image} (hi : Sound t p i) (hj : Sound t p j) :
    i = j := by
  obtain ⟨text, htext, hi, -⟩ := hi
  obtain ⟨text', htext', hj, -⟩ := hj
  rw [htext] at htext'
  cases htext'
  rw [hi] at hj
  exact Except.ok.inj hj

theorem install_say (b : Boot) (m : Machine Tree) (text : String) :
    (b.install (m.say text)).1 = (b.install m).1 ∧
      (b.install (m.say text)).2.store = (b.install m).2.store := by
  unfold install
  simp only [Machine.say]
  split
  · exact ⟨rfl, rfl⟩
  · split <;> exact ⟨rfl, rfl⟩

theorem start_store (b : Boot) (m : Machine Tree) :
    (b.start m).2.store = (b.install m).2.store := by
  rw [← (install_say b m "Bootloader starting...").2]
  rcases start_cases b m with ⟨i, -, h⟩ | ⟨-, f, h⟩
  · rw [h]; rfl
  · rw [h]; rfl

/-- Where there is something at the place of the image, a start leaves the tree as it is. -/
theorem start_present (h : m.store.get? (canonical b.corePath) ≠ none) :
    (b.start m).2.store = m.store := by
  rw [start_store, install_present h]
  rfl

/-- Where there is nothing and no file in the way, it adds the canonical image. -/
theorem start_open (ht : TreeOK m.store) (h : m.store.get? (canonical b.corePath) = none)
    (ho : m.store.Open (canonical b.corePath)) :
    (b.start m).2.store =
      m.store.plant (canonical b.corePath) (.file Image.canonical.toJson) := by
  rw [start_store, install_open ht h ho]
  rfl

theorem start_treeOK (b : Boot) (ht : TreeOK m.store) : TreeOK (b.start m).2.store := by
  rw [start_store]
  exact install_treeOK b ht

/-- **When a start gives a session**: exactly if there is a sound image after it. The session is in
the root directory, has the machine as it is then, and may run what the image says. -/
theorem start_some (b : Boot) (m : Machine Tree) (s : Session Tree) :
    (b.start m).1 = some s ↔ ∃ i, Sound (b.start m).2.store (canonical b.corePath) i ∧
      s = (b.start m).2.session i.commands b.prompt := by
  rcases start_cases b m with ⟨i, hi, h⟩ | ⟨hnone, f, h⟩
  · rw [h]
    constructor
    · intro hs
      exact ⟨i, hi, (Option.some.inj hs).symm⟩
    · rintro ⟨j, hj, rfl⟩
      obtain rfl := hi.unique hj
      rfl
  · rw [h]
    constructor
    · intro hs
      cases hs
    · rintro ⟨j, hj, -⟩
      exact absurd hj (hnone j)

/-- The session that a start gives has the machine as it is after the start. -/
theorem start_toMachine {m' : Machine Tree} {s : Session Tree} (h : b.start m = (some s, m')) :
    s.toMachine = m' := by
  obtain ⟨i, -, hs⟩ := (start_some b m s).mp (congrArg Prod.fst h)
  rw [hs, h]
  rfl

theorem Sound.enables (h : Sound (b.start m).2.store (canonical b.corePath) i) :
    b.Enables m i.commands :=
  ⟨_, (start_some b m _).mpr ⟨i, h, rfl⟩, fun _ => List.contains_iff_mem⟩

/-- What a start reports: that it was refused exactly if it gives no session, once and last. -/
theorem start_events (b : Boot) (ht : TreeOK m.store) :
    ∃ new, (b.start m).2.terminal = ⟨m.terminal.input, m.terminal.events ++ new⟩ ∧
      ((b.start m).1 = none → ∃ before f, new = before ++ [refusal f] ∧ ∀ g, refusal g ∉ before) ∧
      ((b.start m).1 ≠ none → ∀ g, refusal g ∉ new) := by
  obtain ⟨new, hterminal, hnew⟩ := install_events (m := m.say "Bootloader starting...") b ht
  let before := .line "Bootloader starting..." :: new ++ [.line "Loading OS core..."]
  have hbefore : ∀ g, refusal g ∉ before := by
    intro g
    simp only [before, List.mem_append, List.mem_cons, List.not_mem_nil, or_false, not_or]
    exact ⟨⟨refusal_ne_line g _, hnew g⟩, refusal_ne_line g _⟩
  have hload : ((b.install (m.say "Bootloader starting...")).2.say "Loading OS core...").terminal =
      ⟨m.terminal.input, m.terminal.events ++ before⟩ := by
    simp only [Machine.say, Terminal.writeLine, Terminal.record] at hterminal ⊢
    rw [hterminal]
    simp [before]
  rcases start_cases b m with ⟨i, -, h⟩ | ⟨-, f, h⟩
  · refine ⟨before ++ [.line "OS core loaded. Executing..."], ?_, fun hnone => ?_, fun _ g hg => ?_⟩
    · rw [h]
      show Terminal.record _ _ = _
      rw [hload, Terminal.record, List.append_assoc]
    · rw [h] at hnone
      cases hnone
    · rcases List.mem_append.mp hg with hg | hg
      · exact hbefore g hg
      · exact refusal_ne_line g _ (List.mem_singleton.mp hg)
  · refine ⟨before ++ [refusal f], ?_, fun _ => ⟨before, f, rfl, hbefore⟩, fun hsome => ?_⟩
    · rw [h]
      show Terminal.record _ _ = _
      rw [hload, Terminal.record, List.append_assoc]
    · rw [h] at hsome
      exact absurd rfl hsome

/-! ## Starts one after the other -/

/-- The tree after a start on each of the terminals, one after the other. -/
def restarts (b : Boot) (t : Tree) (terminals : List Terminal) : Tree :=
  terminals.foldl (fun t terminal => (b.start ⟨t, terminal⟩).2.store) t

/-- A start over a sound image leaves it and the rest of the tree as they are. -/
theorem start_sound (h : Sound m.store (canonical b.corePath) i) :
    (b.install m).1 = .alreadyPresent ∧ (b.start m).2.store = m.store ∧
      b.Enables m i.commands := by
  have hpresent : m.store.get? (canonical b.corePath) ≠ none := by
    obtain ⟨text, htext, -⟩ := h
    rw [htext]
    exact Option.some_ne_none _
  have hstore : (b.start m).2.store = m.store := start_present hpresent
  refine ⟨by rw [install_present hpresent], hstore, Sound.enables ?_⟩
  rw [hstore]
  exact h

theorem restarts_sound {t : Tree} (h : Sound t (canonical b.corePath) i)
    (terminals : List Terminal) : b.restarts t terminals = t := by
  unfold restarts
  induction terminals with
  | nil => rfl
  | cons terminal terminals ih =>
    rw [List.foldl_cons, (start_sound (m := ⟨t, terminal⟩) h).2.1]
    exact ih

theorem sound_plant (t : Tree) (p : String) :
    Sound (t.plant p (.file Image.canonical.toJson)) p Image.canonical := by
  refine ⟨_, ?_, Image.ofJson_toJson _, Image.verify_make _ _ _⟩
  rw [get?_plant, if_pos rfl]

/-- A start on an empty tree gives a session, unless the image is to be the root. -/
theorem start_empty (b : Boot) (terminal : Terminal) (hp : canonical b.corePath ≠ "/") :
    ∃ s, (b.start ⟨Tree.empty, terminal⟩).1 = some s := by
  let m : Machine Tree := ⟨.empty, terminal⟩
  have hnone : m.store.get? (canonical b.corePath) = none := by
    rw [Tree.get?_empty, if_neg (Ne.symm hp)]
  have hsound : Sound (b.start m).2.store (canonical b.corePath) Image.canonical := by
    rw [start_open empty_ok hnone (empty_open _)]
    exact sound_plant m.store _
  exact ⟨_, (start_some b m _).mpr ⟨_, hsound, rfl⟩⟩

/-- **What a start does**, with `p` for the place of the image and `t` for the tree afterwards.

An installation leaves the tree alone if there is something at `p` already, or if a file stands on
the way to it. Otherwise it adds the canonical image at `p`, and the directories that are missing.

Then there is a session iff the file at `p` gives a sound image. It starts in the root directory and
may run what that image says. If there is none, the last event says so, and no other.

A tree that got the canonical image keeps it through any number of starts. -/
theorem start_protocol (b : Boot) {m : Machine Tree} (ht : TreeOK m.store) :
    let p := canonical b.corePath
    let t := (b.start m).2.store
    t = (b.install m).2.store ∧
    (m.store.get? p ≠ none → (b.install m).1 = .alreadyPresent ∧ t = m.store) ∧
    (m.store.get? p = none → m.store.Open p → (b.install m).1 = .created ∧
      ∀ key, t.get? key =
        if key = p then some (.file Image.canonical.toJson)
        else if m.store.get? key = none ∧ key ∈ ancestors p then some .dir
        else m.store.get? key) ∧
    (m.store.get? p = none → ¬ m.store.Open p → (b.install m).1 = .failed ∧ t = m.store) ∧
    ((b.start m).1 ≠ none ↔ ∃ i, Sound t p i) ∧
    (∀ s, (b.start m).1 = some s → s.cwd = "/" ∧ s.toMachine = (b.start m).2 ∧
      ∀ i, Sound t p i → ∀ x, s.isEnabled x = true ↔ x ∈ i.commands) ∧
    (∃ new, (b.start m).2.terminal = ⟨m.terminal.input, m.terminal.events ++ new⟩ ∧
      ((b.start m).1 = none → ∃ before f, new = before ++ [refusal f] ∧ ∀ g, refusal g ∉ before) ∧
      ((b.start m).1 ≠ none → ∀ g, refusal g ∉ new)) ∧
    (m.store.get? p = none → m.store.Open p → b.Enables m Image.canonical.commands ∧
      ∀ terminals, b.restarts t terminals = t ∧
      ∀ terminal, (b.install ⟨t, terminal⟩).1 = .alreadyPresent ∧
        b.Enables ⟨t, terminal⟩ Image.canonical.commands) := by
  intro p t
  have hstore : t = (b.install m).2.store := start_store b m
  refine ⟨hstore, ?_, ?_, ?_, ?_, ?_, start_events b ht, ?_⟩
  · intro hsome
    exact ⟨by rw [install_present hsome], start_present hsome⟩
  · intro hnone ho
    have hplanted : t = m.store.plant p (.file Image.canonical.toJson) := start_open ht hnone ho
    refine ⟨by rw [install_open ht hnone ho], fun key => ?_⟩
    rw [hplanted]
    exact ho.get?_plant _ key
  · intro hnone ho
    obtain ⟨f, hf⟩ := install_blocked ht hnone ho
    rw [hstore, hf]
    exact ⟨rfl, rfl⟩
  · constructor
    · intro hsome
      obtain ⟨s, hs⟩ := Option.ne_none_iff_exists'.mp hsome
      obtain ⟨i, hi, -⟩ := (start_some b m s).mp hs
      exact ⟨i, hi⟩
    · rintro ⟨i, hi⟩
      rw [(start_some b m _).mpr ⟨i, hi, rfl⟩]
      exact Option.some_ne_none _
  · intro s hs
    obtain ⟨j, hj, rfl⟩ := (start_some b m s).mp hs
    refine ⟨rfl, rfl, fun i hi x => ?_⟩
    obtain rfl := hi.unique hj
    exact List.contains_iff_mem
  · intro hnone ho
    have hplanted : t = m.store.plant p (.file Image.canonical.toJson) := start_open ht hnone ho
    have hsound : Sound t p Image.canonical := by
      rw [hplanted]
      exact sound_plant m.store p
    refine ⟨hsound.enables, fun terminals => ⟨restarts_sound hsound terminals, fun terminal => ?_⟩⟩
    obtain ⟨hinstall, -, henables⟩ := start_sound (m := ⟨t, terminal⟩) hsound
    exact ⟨hinstall, henables⟩

/-- Starts with the place of the image in another spelling. -/
def oddBoot : Boot := { corePath := "sys\\core.json", prompt := defaultPrompt }

/-- There is nothing yet. -/
def barePlace : Machine Tree := ⟨.empty, .ofInput []⟩

/-- A directory takes the place of the image. -/
def takenPlace : Machine Tree := ⟨Tree.empty.plant "/sys/core.json" .dir, .ofInput []⟩

/-- A file stands on the way to it. -/
def blockedPlace : Machine Tree := ⟨Tree.empty.plant "/sys" (.file "x"), .ofInput []⟩

/-- The image that is there has lost its checksum. -/
def editedPlace : Machine Tree :=
  ⟨Tree.empty.plant "/sys/core.json"
    (.file ({ Image.canonical with checksum := "" } : Image).toJson), .ofInput []⟩

/-- The first start on an empty tree, and three starts that change nothing, give no session and
report one refusal in the end. -/
theorem start_protocol_first :
    (TreeOK barePlace.store ∧ (oddBoot.install barePlace).1 = .created ∧
      (oddBoot.start barePlace).2.store.get? "/sys/core.json" =
        some (.file Image.canonical.toJson) ∧
      (oddBoot.start barePlace).2.store.get? "/sys" = some .dir ∧
      (oddBoot.start barePlace).2.store.get? "/core.json" = none ∧
      oddBoot.Enables barePlace Image.canonical.commands) ∧
    (TreeOK takenPlace.store ∧ (oddBoot.install takenPlace).1 = .alreadyPresent ∧
      (oddBoot.start takenPlace).2.store = takenPlace.store ∧
      (oddBoot.start takenPlace).1 = none ∧
      (oddBoot.start takenPlace).2.terminal.events = [.line "Bootloader starting...",
        .line "OS core already exists.", .line "Loading OS core...",
        .error "Error loading or executing OS core: is a directory: /sys/core.json"]) ∧
    (TreeOK blockedPlace.store ∧ (oddBoot.install blockedPlace).1 = .failed ∧
      (oddBoot.start blockedPlace).2.store = blockedPlace.store ∧
      (oddBoot.start blockedPlace).1 = none ∧
      (oddBoot.start blockedPlace).2.terminal.events = [.line "Bootloader starting...",
        .line "Creating OS core...", .error "Error creating OS core: not a directory: /sys",
        .line "Loading OS core...",
        .error "Error loading or executing OS core: not found: /sys/core.json"]) ∧
    (TreeOK editedPlace.store ∧ (oddBoot.install editedPlace).1 = .alreadyPresent ∧
      (oddBoot.start editedPlace).2.store = editedPlace.store ∧
      (oddBoot.start editedPlace).1 = none ∧
      (oddBoot.start editedPlace).2.terminal.events = [.line "Bootloader starting...",
        .line "OS core already exists.", .line "Loading OS core...",
        .error ("Error loading or executing OS core: " ++
          "Core image error: checksum mismatch for vsh 0.1.0")]) := by
  have hp : canonical oddBoot.corePath = "/sys/core.json" := by decide
  have hcore : canonical "/sys/core.json" = "/sys/core.json" := by decide
  refine ⟨?_, ?_, ?_, ?_⟩
  · have ht : TreeOK barePlace.store := empty_ok
    have hnone : barePlace.store.get? (canonical oddBoot.corePath) = none := by
      rw [hp]
      rfl
    have ho : barePlace.store.Open (canonical oddBoot.corePath) := empty_open _
    obtain ⟨-, -, hopen, -, -, -, -, hagain⟩ := start_protocol oddBoot ht
    obtain ⟨hcreated, hget⟩ := hopen hnone ho
    rw [hp] at hget
    exact ⟨ht, hcreated, (hget _).trans (by rfl), (hget _).trans (by rfl),
      (hget _).trans (by rfl), (hagain hnone ho).1⟩
  · have ht : TreeOK takenPlace.store := empty_ok.plant hcore fun _ => rfl
    have hsome : takenPlace.store.get? (canonical oddBoot.corePath) ≠ none := by
      rw [hp]
      decide
    obtain ⟨-, hpresent, -⟩ := start_protocol oddBoot ht
    obtain ⟨hinstall, hstore⟩ := hpresent hsome
    exact ⟨ht, hinstall, hstore, rfl, rfl⟩
  · have ht : TreeOK blockedPlace.store :=
      empty_ok.plant (by decide) fun hd => absurd hd (by decide)
    have hnone : blockedPlace.store.get? (canonical oddBoot.corePath) = none := by
      rw [hp]
      decide
    have ho : ¬ blockedPlace.store.Open (canonical oddBoot.corePath) := by
      intro ho
      rw [hp] at ho
      exact ho "/sys" (by decide) "x" rfl
    obtain ⟨-, -, -, hblocked, -⟩ := start_protocol oddBoot ht
    obtain ⟨hinstall, hstore⟩ := hblocked hnone ho
    exact ⟨ht, hinstall, hstore, rfl, rfl⟩
  · have ht : TreeOK editedPlace.store := empty_ok.plant hcore fun hd => absurd hd (by decide)
    have hfile : editedPlace.store.get? (canonical oddBoot.corePath) =
        some (.file ({ Image.canonical with checksum := "" } : Image).toJson) := by
      unfold editedPlace
      rw [hp, get?_plant, if_pos rfl]
    have hsome : editedPlace.store.get? (canonical oddBoot.corePath) ≠ none := by
      rw [hfile]
      exact Option.some_ne_none _
    obtain ⟨-, hpresent, -⟩ := start_protocol oddBoot ht
    obtain ⟨hinstall, hstore⟩ := hpresent hsome
    have hstart := start_refused hfile (Image.load_mismatch (by decide))
    exact ⟨ht, hinstall, hstore, by rw [hstart], by rw [hstart]; rfl⟩

end TreeShell.Boot
