import TreeShell.Proofs.Session.Boot
import TreeShell.Proofs.Snapshot.RoundTrip

/-!
# A persisted image governs the sessions

An image is kept as a text in the tree, and the tree as a text on the host. What a session may run
comes out of both as it was put in.

* `sound_write`: an image with its own checksum is sound where its text was written.
* `persisted_governs`: **an image that was written is what every start goes by**, however often the
  tree was saved and restored in between.
-/

namespace TreeShell.Boot

open TreeShell.Path Store

variable {b : Boot} {t t' : Tree} {name version : String} {commands : List String}

/-- **A sound image stands where the text of an image was written** with its own checksum. -/
theorem sound_write (ht : TreeOK t)
    (hw : t.write b.corePath (Image.make name version commands).toJson = .ok t') :
    Sound t' (canonical b.corePath) (Image.make name version commands) := by
  obtain ⟨-, -, rfl⟩ := (write_ok ht).mp hw
  refine ⟨_, ?_, Image.ofJson_toJson _, Image.verify_make name version commands⟩
  rw [get?_plant, if_pos rfl]

/-- **A persisted image comes back unchanged and governs the session**, whatever its name, its
version and the names of its commands are. Its text gives the image, and its checksum is its own.
Once the text was written to the place of the image, every start gives a session that may run
exactly the commands of the image, and leaves the tree as it is. That the tree is saved and restored
before the start, however often, makes no difference. -/
theorem persisted_governs (name version : String) (commands : List String) :
    let i := Image.make name version commands
    Image.ofJson i.toJson = .ok i ∧ i.verify = .ok () ∧
    ∀ (b : Boot) (t t' : Tree), TreeOK t → t.write b.corePath i.toJson = .ok t' →
      ∀ (n : Nat) (terminal : Terminal), ∃ u s, reloads n t' = .ok u ∧
        b.start ⟨u, terminal⟩ = (some s, s.toMachine) ∧
        (∀ x, s.isEnabled x = true ↔ x ∈ commands) ∧ s.store = t' := by
  intro i
  refine ⟨Image.ofJson_toJson i, Image.verify_make name version commands, ?_⟩
  intro b t t' ht hw n terminal
  have ht' : TreeOK t' := write_keeps ht hw
  have hsound : Sound t' (canonical b.corePath) i := sound_write ht hw
  obtain ⟨-, hstore, -⟩ := start_sound (m := ⟨t', terminal⟩) hsound
  -- the image is still there after the start, and the session is made of it
  let s := (b.start ⟨t', terminal⟩).2.session i.commands b.prompt
  have hs : (b.start ⟨t', terminal⟩).1 = some s := by
    refine (start_some b _ s).mpr ⟨i, ?_, rfl⟩
    rw [hstore]
    exact hsound
  exact ⟨t', s, reloads_ok ht' n, Prod.ext hs rfl, fun x => List.contains_iff_mem, hstore⟩

/-- Names with quotes, separators and line feeds, one of them empty and one given twice, in an image
that is written to a new tree and saved twice. -/
theorem persisted_governs_odd :
    let b : Boot := { corePath := "sys\\./core.json", prompt := defaultPrompt }
    let i := Image.make "\"vsh\"\n" "é,\\" ["ec\"ho\n", "", "a,b", "echo", "echo"]
    TreeOK .empty ∧ ∃ t u s, Tree.empty.write b.corePath i.toJson = .ok t ∧ reloads 2 t = .ok u ∧
      (b.start ⟨u, .ofInput ["ls"]⟩).1 = some s ∧ s.store = t ∧
      s.isEnabled "ec\"ho\n" = true ∧ s.isEnabled "" = true ∧ s.isEnabled "a" = false := by
  intro b i
  have hp : canonical b.corePath = "/sys/core.json" := by decide
  have hdir : Tree.empty.get? (canonical b.corePath) ≠ some .dir := by
    rw [hp, Tree.get?_empty, if_neg (by decide)]
    exact (Option.some_ne_none _).symm
  have hw := write_of_open (c := i.toJson) empty_ok hdir (empty_open _)
  obtain ⟨-, -, hstart⟩ :=
    persisted_governs "\"vsh\"\n" "é,\\" ["ec\"ho\n", "", "a,b", "echo", "echo"]
  obtain ⟨u, s, hu, hs, henabled, hstore⟩ := hstart b .empty _ empty_ok hw 2 (.ofInput ["ls"])
  refine ⟨empty_ok, _, u, s, hw, hu, by rw [hs], hstore, (henabled _).mpr (by decide),
    (henabled _).mpr (by decide), ?_⟩
  rw [Bool.eq_false_iff, ne_eq, henabled]
  decide

end TreeShell.Boot
