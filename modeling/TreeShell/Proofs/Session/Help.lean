import Mathlib.Data.List.TFAE
import Mathlib.Data.Set.Finite.Basic
import Mathlib.Tactic.TFAE
import TreeShell.Proofs.Path.Moves
import TreeShell.Proofs.Session.Branches
import TreeShell.Proofs.Session.Directory
import TreeShell.Proofs.Session.Entering

/-!
# What `help` says, and what runs

The commands are named in three places: in the table that `help` prints from, in the families that
take a name to its command, and in the image that a session is made of. Only the image can name what
there is not, or a name twice.

* `Command.listed`: the names in a line of `help`, read from its text. `listed_helpList`: they are
  those it was made of.
* `CarriesOut`, `carriesOut_iff`: the names that one of the families takes, where they may be run.
* `Recognized`, `runBuiltin_recognized`: **no built-in command always answers as if it were unknown.**
* `help_list`, `help_block`, `help_unknown`: what `help` gives.
* `help_truthful`: **`help` lists, and explains, what runs, and nothing else.**
-/

namespace TreeShell

/-! ## The list that `help` prints -/

namespace Command

/-- The names in a line of `help`: what stands between the commas behind the heading, each without
the blank before it. -/
def listed (text : String) : List String :=
  ((text.toList.drop "Available commands:".length).splitOn ',').map fun piece =>
    String.ofList (piece.drop 1)

/-- The line is the heading and a list cut at its commas, each of whose pieces starts with a blank. -/
theorem helpList_eq {names : List String} (hne : names ≠ []) :
    helpList names = "Available commands:" ++ ",".intercalate (names.map (" " ++ ·)) := by
  obtain ⟨name, names, rfl⟩ := List.exists_cons_of_ne_nil hne
  apply String.toList_injective
  unfold helpList
  simp only [String.toList_append, String.toList_intercalate, List.map_cons,
    Text.intercalate_cons_eq, List.map_map, List.flatMap_map, Function.comp_apply]
  simp

/-- **The names of a list are read back** from the line it is printed in. -/
theorem listed_helpList {names : List String} (hne : names ≠ []) (hnames : ∀ n ∈ names, ',' ∉ n.toList) :
    listed (helpList names) = names := by
  have hpieces : ∀ piece ∈ names.map (" " ++ ·), ',' ∉ piece.toList := by
    intro piece hpiece
    obtain ⟨n, hn, rfl⟩ := List.mem_map.1 hpiece
    rw [String.toList_append, List.mem_append]
    exact not_or.2 ⟨by decide, hnames n hn⟩
  have hbehind : (helpList names).toList.drop "Available commands:".length =
      (",".intercalate (names.map (" " ++ ·))).toList := by
    rw [helpList_eq hne, String.toList_append]
    exact List.drop_left
  have hcut : ((",".intercalate (names.map (" " ++ ·))).toList.splitOn ',').map String.ofList =
      names.map (" " ++ ·) :=
    Text.cut_intercalate rfl (by simpa using hne) hpieces
  have hblank : ∀ n ∈ names, String.ofList ((" " ++ n).toList.drop 1) = n := by
    intro n _
    rw [String.toList_append]
    exact String.ofList_toList
  unfold listed
  rw [hbehind]
  calc _ = (((",".intercalate (names.map (" " ++ ·))).toList.splitOn ',').map String.ofList).map
        fun piece => String.ofList (piece.toList.drop 1) := by
        simp only [List.map_map, Function.comp_def, String.toList_ofList]
    _ = names.map fun n => String.ofList ((" " ++ n).toList.drop 1) := by
        rw [hcut, List.map_map]
        rfl
    _ = names := by rw [List.map_congr_left hblank, List.map_id']

theorem comma_notMem_name (b : Builtin) : ',' ∉ b.name.toList := by
  cases b <;> decide

theorem names_nodup : (Builtin.all.map Builtin.name).Nodup := by decide

/-- A text starts as the words it is put behind. -/
theorem head?_append {words : String} {c : Char} {cs : List Char} (hwords : words.toList = c :: cs)
    (text : String) : (words ++ text).toList.head? = some c := by
  rw [String.toList_append, hwords]
  rfl

theorem head?_unknownCommand (name : String) : (unknownCommand name).toList.head? = some 'U' := by
  unfold unknownCommand
  rw [String.append_assoc]
  exact head?_append String.toList_ofList _

/-- A block starts with the name of its command, and no name starts with a capital letter. -/
theorem head?_helpText (b : Builtin) : b.helpText.toList.head? ≠ some 'U' := by
  have hname : ∃ c cs, b.name.toList = c :: cs ∧ c ≠ 'U' := by
    cases b <;> exact ⟨_, _, String.toList_ofList, by decide⟩
  obtain ⟨c, cs, hname, hc⟩ := hname
  unfold Builtin.helpText
  rw [String.append_assoc, String.append_assoc, String.append_assoc, head?_append hname]
  simpa using hc

end Command

namespace Session

open Command (Builtin unknownCommand helpList listed)
open Store (Backend Tree)
open WorkDir (Absolute)

/-! ## What runs -/

section

variable {σ : Type} [Backend σ] {s : Session σ} {name : String}

/-- A built-in command carries out what is asked under a name: it may be run, and one of the families
takes it, whatever the arguments. -/
def CarriesOut (s : Session σ) (name : String) : Prop :=
  s.isEnabled name = true ∧
    ∀ dead args piped, (s.dispatch? dead name args piped).isSome = true

/-- **The families take what may be run and is built in.** -/
theorem carriesOut_iff : s.CarriesOut name ↔ name ∈ s.commands ∧ ∃ b : Builtin, b.name = name := by
  constructor
  · rintro ⟨henabled, htaken⟩
    refine ⟨isEnabled_iff.1 henabled, ?_⟩
    by_contra hb
    have hother : ∀ b : Builtin, b.name ≠ name := fun b h => hb ⟨b, h⟩
    have hnone := htaken (fun s => (.ok .noValue, s)) [] ""
    rw [dispatch?_other hother] at hnone
    cases hnone
  · rintro ⟨hname, b, rfl⟩
    refine ⟨isEnabled_iff.2 hname, fun dead args piped => ?_⟩
    rw [dispatch?_builtin]
    rfl

/-- An answer that is not the one to an unknown name. -/
def Recognized (r : Reply (Session σ) Outcome) : Prop :=
  ∀ name, r.1 ≠ .ok (.text (unknownCommand name))

omit [Backend σ] in
theorem output_recognized (s : Session σ) {text : String} (h : text.toList.head? ≠ some 'U') :
    Recognized (s.output text) := by
  intro name hanswer
  obtain rfl : text = unknownCommand name := Outcome.text.inj (Except.ok.inj hanswer)
  exact h (Command.head?_unknownCommand name)

omit [Backend σ] in
theorem andThen_recognized {α : Type} {r : Reply (Session σ) α}
    {next : α → Session σ → Reply (Session σ) Outcome} (h : ∀ a s, Recognized (next a s)) :
    Recognized (andThen r next) := by
  intro name hanswer
  obtain ⟨a, s', -, hnext⟩ := andThen_ok hanswer
  exact h a s' name hnext

omit [Backend σ] in
/-- A report starts with its own words. -/
theorem report_recognized (s : Session σ) {words : String} {c : Char} {cs : List Char}
    (hwords : words.toList = c :: cs) (hc : c ≠ 'U') (text : String) :
    Recognized (s.output (words ++ text)) := by
  refine output_recognized s ?_
  rw [Command.head?_append hwords]
  simpa using hc

/-! ## What `help` gives -/

/-- The names of the table that may be run, in its order. -/
def menu (s : Session σ) : List String := (Builtin.all.map Builtin.name).filter s.isEnabled

/-- **The menu is made of what runs.** -/
theorem mem_menu : name ∈ s.menu ↔ s.CarriesOut name := by
  unfold menu
  rw [carriesOut_iff, List.mem_filter, and_comm]
  constructor
  · rintro ⟨henabled, htable⟩
    obtain ⟨b, -, hb⟩ := List.mem_map.1 htable
    exact ⟨isEnabled_iff.1 henabled, b, hb⟩
  · rintro ⟨hname, b, rfl⟩
    exact ⟨isEnabled_iff.2 hname, name_mem_canonical b⟩

/-- The menu is read back from the line that lists it. -/
theorem listed_menu (hhelp : "help" ∈ s.commands) : listed (helpList s.menu) = s.menu := by
  have hself : "help" ∈ s.menu := mem_menu.2 (carriesOut_iff.2 ⟨hhelp, .help, rfl⟩)
  refine Command.listed_helpList (List.ne_nil_of_mem hself) fun name hname => ?_
  obtain ⟨-, b, rfl⟩ := carriesOut_iff.1 (mem_menu.1 hname)
  exact Command.comma_notMem_name b

theorem help_list (hhelp : "help" ∈ s.commands) (piped : String) :
    s.execute "help" [] piped = s.output (helpList s.menu) :=
  execute_builtin .help hhelp [] piped

/-- `help` explains a command that runs. -/
theorem help_block (hhelp : "help" ∈ s.commands) {b : Builtin} (hname : b.name ∈ s.commands)
    (rest : List String) (piped : String) :
    s.execute "help" (b.name :: rest) piped = s.output b.helpText := by
  have henabled : s.isEnabled b.name = true := isEnabled_iff.2 hname
  have hrun : s.execute "help" (b.name :: rest) piped = s.help (some b.name) :=
    execute_builtin .help hhelp (b.name :: rest) piped
  rw [hrun]
  simp only [help, ofName?_name, henabled, if_true]

/-- `help` knows nothing of what does not run. -/
theorem help_unknown (hhelp : "help" ∈ s.commands) (hname : ¬ s.CarriesOut name)
    (rest : List String) (piped : String) :
    s.execute "help" (name :: rest) piped = s.output (unknownCommand name) := by
  have hrun : s.execute "help" (name :: rest) piped = s.help (some name) :=
    execute_builtin .help hhelp (name :: rest) piped
  rw [hrun]
  simp only [help]
  cases hb : Builtin.ofName? name with
  | none => rfl
  | some b =>
    have hdisabled : ¬ s.isEnabled name = true := by
      intro henabled
      exact hname (carriesOut_iff.2 ⟨isEnabled_iff.1 henabled, b, name_of_ofName? hb⟩)
    simp only [if_neg hdisabled]

end

/-! ## No command is unknown to all arguments -/

/-- Some path leads nowhere: a tree has finitely many keys. -/
theorem exists_nowhere (t : Tree) : ∃ path, Absolute path ∧ t.get? (Path.canonical path) = none := by
  have hok : ∀ n, Path.PartsOK (List.replicate n "a") := by
    intro n c hc
    rw [List.eq_of_mem_replicate hc]
    exact ⟨by decide, by decide, by decide⟩
  have hinj : Function.Injective fun n => Path.ofParts (List.replicate n "a") := by
    intro n m h
    have hparts := (Path.ofParts_inj (hok n) (hok m)).1 h
    simpa using congrArg List.length hparts
  obtain ⟨-, ⟨n, rfl⟩, hgone⟩ :=
    (Set.infinite_range_of_injective hinj).exists_notMem_finset t.keys.toFinset
  refine ⟨Path.ofParts (List.replicate n "a"), ?_, ?_⟩
  · unfold Absolute
    rw [Path.toList_ofParts_eq]
    rfl
  · rw [Path.canonical_ofParts (hok n)]
    rw [List.mem_toFinset, Tree.mem_keys] at hgone
    simpa using hgone

variable {s : Session Tree}

/-- A request that fails gives no text. -/
theorem ask_recognized {α : Type} {f : Tree → Except Store.Fault α} {fault : Store.Fault}
    {next : α → Session Tree → Reply (Session Tree) Outcome} (h : f s.store = .error fault) :
    Recognized (andThen (s.ask fun t => (f t, t)) next) := by
  intro name hanswer
  obtain ⟨a, s', hask, -⟩ := andThen_ok hanswer
  unfold ask at hask
  simp only [h] at hask
  cases hask

/-- **No built-in command always answers as if it were unknown.** For a file and a directory that
takes a path that leads nowhere, as their texts and names may be anything. -/
theorem runBuiltin_recognized (b : Builtin) (hcwd : Absolute s.cwd) :
    ∃ args, Recognized (s.runBuiltin b args "") := by
  obtain ⟨path, habsolute, hnowhere⟩ := exists_nowhere s.store
  have hlocate : s.locate (some path) = path := WorkDir.locate_of_absolute habsolute s.cwd
  cases b with
  | ls =>
    have hfails : s.store.list (s.locate (some path)) = .error (.notFound (Path.canonical path)) := by
      simp only [hlocate, Tree.list, hnowhere]
    exact ⟨[path], ask_recognized (f := fun t => t.list (s.locate (some path))) hfails⟩
  | cat =>
    have hfails : s.store.read (s.locate (some path)) = .error (.notFound (Path.canonical path)) := by
      simp only [hlocate, Tree.read, hnowhere]
    exact ⟨[path], ask_recognized (f := fun t => t.read (s.locate (some path))) hfails⟩
  | help => exact ⟨[], report_recognized s String.toList_ofList (by decide) _⟩
  | exit => exact ⟨[], fun _ h => by cases h⟩
  | clear => exact ⟨[], output_recognized _ (by decide)⟩
  | cd => exact ⟨[], output_recognized _ (by decide)⟩
  | echo => exact ⟨[], output_recognized _ (by decide)⟩
  | mkdir | rmdir | rm | touch =>
    exact ⟨[], andThen_recognized fun _ s => report_recognized s String.toList_ofList (by decide) _⟩
  | cp =>
    refine ⟨[], andThen_recognized fun _ s => andThen_recognized fun _ s => ?_⟩
    rw [String.append_assoc, String.append_assoc]
    exact report_recognized s String.toList_ofList (by decide) _
  | mv =>
    refine ⟨[], andThen_recognized fun _ s => andThen_recognized fun _ s =>
      andThen_recognized fun _ s => ?_⟩
    rw [String.append_assoc, String.append_assoc]
    exact report_recognized s String.toList_ofList (by decide) _
  | pwd =>
    refine ⟨[], output_recognized _ ?_⟩
    rw [hcwd]
    decide
  | grep => exact ⟨[], output_recognized _ (by decide)⟩

theorem execute_recognized {name : String} (hcwd : Absolute s.cwd) (hruns : s.CarriesOut name) :
    ∃ args, Recognized (s.execute name args "") := by
  obtain ⟨hname, b, rfl⟩ := carriesOut_iff.1 hruns
  obtain ⟨args, hrecognized⟩ := runBuiltin_recognized b hcwd
  refine ⟨args, ?_⟩
  rwa [execute_builtin b hname]

/-! ## Sessions made of an image -/

/-- Wherever calls bring a session, its directory is absolute. -/
theorem calls_absolute (m : Machine Tree) (commands : List String) (prompt : String)
    (cs : List Call) : Absolute ((m.session commands prompt).calls cs).cwd := by
  have hstart : Upright (m.noting.session commands prompt) :=
    ⟨WorkDir.root_tidy, fun r hr => absurd hr List.not_mem_nil⟩
  have hplain : ((m.noting.session commands prompt).calls cs).plain =
      (m.session commands prompt).calls cs := calls_plain _ cs
  rw [← hplain]
  exact (calls_upright hstart cs).cwd.absolute

/-- **`help` tells the truth**, in a session made of any image that has it, wherever calls bring it.

It lists names in the order of the table, each once. Any name is among them exactly if a built-in
command carries it out, exactly if it is not always answered as unknown, exactly if `help` explains
it, and exactly if `help` does not answer that it is unknown. -/
theorem help_truthful {i : Image} (hhelp : "help" ∈ i.commands) (m : Machine Tree) (prompt : String)
    (cs : List Call) :
    let s := (m.session i.commands prompt).calls cs
    ∃ text, (∀ piped, s.execute "help" [] piped = (.ok (.text text), s)) ∧
      (listed text).Nodup ∧ (listed text).Sublist (Builtin.all.map Builtin.name) ∧
      ∀ x, List.TFAE [
        s.CarriesOut x,
        ¬ ∀ args piped, s.execute x args piped = (.ok (.text (unknownCommand x)), s),
        ∃ b : Builtin, b.name = x ∧
          ∀ rest piped, s.execute "help" (x :: rest) piped = (.ok (.text b.helpText), s),
        ¬ ∀ rest piped, s.execute "help" (x :: rest) piped = (.ok (.text (unknownCommand x)), s),
        x ∈ listed text] := by
  intro s
  have hcommands : s.commands = i.commands := calls_commands _ cs
  have hcwd : Absolute s.cwd := calls_absolute m i.commands prompt cs
  have hhere : "help" ∈ s.commands := by rwa [hcommands]
  refine ⟨helpList s.menu, help_list hhere, ?_⟩
  rw [listed_menu hhere]
  refine ⟨Command.names_nodup.filter _, List.filter_sublist, fun x => ?_⟩
  tfae_have 1 ↔ 5 := mem_menu.symm
  tfae_have 1 → 2 := by
    intro hruns hunknown
    obtain ⟨args, hrecognized⟩ := execute_recognized hcwd hruns
    exact hrecognized x (congrArg Prod.fst (hunknown args ""))
  tfae_have 2 → 1 := by
    intro hknown
    by_contra hruns
    exact hknown fun args piped => execute_unknown (mt carriesOut_iff.2 hruns) args piped
  tfae_have 1 → 3 := by
    intro hruns
    obtain ⟨hname, b, rfl⟩ := carriesOut_iff.1 hruns
    exact ⟨b, rfl, help_block hhere hname⟩
  tfae_have 3 → 4 := by
    rintro ⟨b, -, hblock⟩ hunknown
    have htext := (hblock [] "").symm.trans (hunknown [] "")
    have hsame : b.helpText = unknownCommand x :=
      Outcome.text.inj (Except.ok.inj (congrArg Prod.fst htext))
    exact Command.head?_helpText b (hsame ▸ Command.head?_unknownCommand x)
  tfae_have 4 → 1 := by
    intro hknown
    by_contra hruns
    exact hknown (help_unknown hhere hruns)
  tfae_finish

/-- An image that names a command twice, and one that there is not. -/
theorem help_truthful_odd :
    let i := Image.make "odd" "1" ["echo", "frobnicate", "help", "echo", "cat"]
    let s := (fresh.toMachine.session i.commands "> ").calls
      [.feed "cd a, b | frobnicate", .step, .execute "exit" [] ""]
    s.execute "help" [] "" = (.ok (.text "Available commands: cat, help, echo"), s) ∧
      listed "Available commands: cat, help, echo" = ["cat", "help", "echo"] ∧
      s.CarriesOut "echo" ∧ ¬ s.CarriesOut "frobnicate" ∧ ¬ s.CarriesOut "exit" ∧
      s.execute "help" ["cat"] "" = (.ok (.text "cat - Print a file\nUsage: cat FILE"), s) ∧
      s.execute "help" ["exit"] "" = (.ok (.text (unknownCommand "exit")), s) := by
  intro i s
  obtain ⟨text, hlist, -, -, hsame⟩ := help_truthful (i := i) (by decide) fresh.toMachine "> "
    [.feed "cd a, b | frobnicate", .step, .execute "exit" [] ""]
  have hhelp : s.execute "help" [] "" = (.ok (.text "Available commands: cat, help, echo"), s) := rfl
  obtain rfl : text = "Available commands: cat, help, echo" :=
    Outcome.text.inj (Except.ok.inj (congrArg Prod.fst ((hlist "").symm.trans hhelp)))
  have hlisted : listed "Available commands: cat, help, echo" = ["cat", "help", "echo"] := by decide
  refine ⟨hhelp, hlisted, ?_, ?_, ?_, rfl, rfl⟩
  · refine ((hsame "echo").out 0 4).2 ?_
    rw [hlisted]
    decide
  · refine mt ((hsame "frobnicate").out 0 4).1 ?_
    rw [hlisted]
    decide
  · refine mt ((hsame "exit").out 0 4).1 ?_
    rw [hlisted]
    decide

end Session

end TreeShell
