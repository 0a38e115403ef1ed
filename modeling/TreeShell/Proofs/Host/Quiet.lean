import TreeShell.Host.Disk

/-!
# Programs that only read the host

Asking a host whether there is a file, or for its text, leaves the host as it is.

* `Reads`: a program that leaves the host as it is, with an answer read off it.
* `Quiet`: a host that questions leave as it is. `disk_quiet`: a disk is one.
* `Reads.bind`, `Reads.filterM`, `Reads.mapM`: **what is made of programs that only read, only
  reads.**
-/

namespace TreeShell.Host

variable {H α β : Type}

/-- A program that leaves the host as it is. Its answer is `f` of the host. -/
def Reads (x : StateM H α) (f : H → α) : Prop := ∀ h, x h = (f h, h)

/-- What a program goes on with is the answer so far, in the state so far. -/
theorem bind_run {x : StateM H α} {next : α → StateM H β} {a : α} {h h' : H} (hx : x h = (a, h')) :
    (x >>= next) h = next a h' := by
  show (match x h with | (a, h) => next a h) = _
  rw [hx]

/-- A program that fails if its first part does, ends well if each of its parts does. -/
theorem bind_ok {ε δ : Type} {x : StateM H (Except ε Unit)}
    {next : Except ε Unit → StateM H (Except δ β)} {b : β} {h h' : H}
    (herror : ∀ e h', (next (.error e) h').1 ≠ .ok b) :
    (x >>= next) h = (.ok b, h') ↔
      ∃ h1, x h = (.ok (), h1) ∧ next (.ok ()) h1 = (.ok b, h') := by
  cases hx : x h with
  | mk answer h1 =>
    rw [bind_run hx]
    cases answer with
    | error e =>
      constructor
      · intro hok
        exact absurd (congrArg Prod.fst hok) (herror e h1)
      · rintro ⟨h2, hfirst, -⟩
        cases hfirst
    | ok _ =>
      constructor
      · intro hok
        exact ⟨h1, rfl, hok⟩
      · rintro ⟨h2, hfirst, hok⟩
        cases hfirst
        exact hok

section Reads

variable {x : StateM H α} {f : H → α}

theorem Reads.pure (a : α) : Reads (Pure.pure a : StateM H α) fun _ => a := fun _ => rfl

theorem Reads.bind {next : α → StateM H β} {g : α → H → β} (hx : Reads x f)
    (hn : ∀ a, Reads (next a) (g a)) : Reads (x >>= next) fun h => g (f h) h :=
  fun h => (bind_run (hx h)).trans (hn (f h) h)

theorem Reads.congr {g : H → α} (hx : Reads x f) (hfg : ∀ h, f h = g h) : Reads x g :=
  fun h => (hx h).trans (congrArg (·, h) (hfg h))

theorem Reads.filterM {p : α → StateM H Bool} {q : α → H → Bool} (hp : ∀ a, Reads (p a) (q a))
    (l : List α) : Reads (l.filterM p) fun h => l.filter (q · h) := by
  -- those that were kept so far are gathered in reverse
  have hgather : ∀ kept : List α,
      Reads (l.filterAuxM p kept) fun h => (l.filter (q · h)).reverse ++ kept := by
    induction l with
    | nil => exact fun kept => .pure kept
    | cons a l ih =>
      intro kept
      refine ((hp a).bind fun b => ih (cond b (a :: kept) kept)).congr fun h => ?_
      cases hq : q a h with
      | true =>
        have hkeep : (a :: l).filter (q · h) = a :: l.filter (q · h) := List.filter_cons_of_pos hq
        rw [hkeep, List.reverse_cons, List.append_assoc]
        rfl
      | false =>
        have hdrop : (a :: l).filter (q · h) = l.filter (q · h) :=
          List.filter_cons_of_neg (by simp [hq])
        rw [hdrop]
        rfl
  refine ((hgather []).bind fun l => .pure l.reverse).congr fun h => ?_
  show ((l.filter (q · h)).reverse ++ []).reverse = l.filter (q · h)
  rw [List.append_nil, List.reverse_reverse]

theorem Reads.mapM {p : α → StateM H β} {q : α → H → β} (hp : ∀ a, Reads (p a) (q a))
    (l : List α) : Reads (l.mapM p) fun h => l.map (q · h) := by
  induction l with
  | nil => exact .pure []
  | cons a l ih =>
    rw [List.mapM_cons]
    exact (hp a).bind fun b => ih.bind fun bs => .pure (b :: bs)

end Reads

variable [Host (StateM H)]

/-- Whether the path leads to anything. -/
def isThere (path : String) (h : H) : Bool := (Host.exists? (m := StateM H) path h).1

/-- What comes of reading a file. -/
def textAt (path : String) (h : H) : Except Errno String :=
  (Host.readText (m := StateM H) path h).1

/-- A host that questions leave as it is. -/
structure Quiet (H : Type) [Host (StateM H)] : Prop where
  exists? : ∀ path, Reads (Host.exists? (m := StateM H) path) (isThere path)
  readText : ∀ path, Reads (Host.readText (m := StateM H) path) (textAt path)

theorem disk_quiet : Quiet Disk := ⟨fun _ _ => rfl, fun _ _ => rfl⟩

end TreeShell.Host
