import Mathlib.Data.List.Basic
import TreeShell.Host.Expand
import TreeShell.Settings.Variables

/-!
# Environments that differ in one variable

What does not refer to a variable stands for the same, whatever that variable holds.

* `SameBut`: environments with the same variables, but for those of one name.
* `Finds`: a name under which a variable can be found. Besides its own name there are those that go
  on behind it with an equals sign, as they reach into its value.
* `SameBut.get?`: **under any other name there is the same value.**
* `Settings.Spares`, `Host.Spares`: a text, or a path, without a reference that finds the variable.
  `Settings.Spares.fill`, `Host.Spares.expand`: it stands for the same.
-/

namespace TreeShell

namespace Environment

/-- Environments with the same variables in the same order, but for those of one name. -/
structure SameBut (name : String) (env env' : Environment) : Prop where
  others : env.bindings.filter (·.1 ≠ name) = env'.bindings.filter (·.1 ≠ name)
  accountHome : env.accountHome = env'.accountHome

/-- A name under which the variable `name` can be found. -/
def Finds (name other : String) : Prop := (name ++ "=").toList <+: (other ++ "=").toList

instance (name other : String) : Decidable (Finds name other) :=
  inferInstanceAs (Decidable (_ <+: _))

variable {name other value : String} {env env' : Environment}

/-- Under another name, the text of a binding says nothing. -/
theorem valueAfter?_other (hname : '=' ∉ name.toList) (hother : ¬ Finds name other) :
    valueAfter? other (name, value) = none := by
  unfold valueAfter?
  simp only [ite_eq_right_iff]
  intro hstart
  rw [List.isPrefixOf_iff_prefix] at hstart
  -- both names with their equals signs are the beginning of one text, so one begins the other
  have htext : (name ++ "=").toList <+: (name ++ "=" ++ value).toList := by
    rw [String.toList_append (s := name ++ "=")]
    exact List.prefix_append _ _
  by_cases hlength : (name ++ "=").toList.length ≤ (other ++ "=").toList.length
  · exact absurd (List.prefix_of_prefix_length_le htext hstart hlength) hother
  · have hbegins : name.toList <+: (name ++ "=" ++ value).toList := by
      rw [String.toList_append, String.toList_append, List.append_assoc]
      exact List.prefix_append _ _
    have hshort : (other ++ "=").toList.length ≤ name.toList.length := by
      have htotal : (name ++ "=").toList.length = name.toList.length + 1 := by simp
      omega
    have hpiece := List.prefix_of_prefix_length_le hstart hbegins hshort
    have hmem : '=' ∈ (other ++ "=").toList := by simp
    exact absurd (hpiece.subset hmem) hname

/-- **Under any other name there is the same value.** -/
theorem SameBut.get? (h : SameBut name env env') (hname : '=' ∉ name.toList)
    (hother : ¬ Finds name other) : env.get? other = env'.get? other := by
  -- a binding of the variable is passed over, so it is as if it had been left out
  have hfilter : ∀ bindings : List (String × String), bindings.findSome? (valueAfter? other) =
      (bindings.filter (·.1 ≠ name)).findSome? (valueAfter? other) := by
    intro bindings
    induction bindings with
    | nil => rfl
    | cons b bs ih =>
      obtain ⟨first, value⟩ := b
      by_cases hfirst : first = name
      · subst hfirst
        rw [List.findSome?_cons, valueAfter?_other hname hother, List.filter_cons_of_neg (by simp)]
        exact ih
      · rw [List.filter_cons_of_pos (by simpa using hfirst), List.findSome?_cons,
          List.findSome?_cons, ih]
  unfold Environment.get?
  rw [hfilter, h.others, ← hfilter]

theorem SameBut.home? (h : SameBut name env env') (hname : '=' ∉ name.toList)
    (hhome : ¬ Finds name "HOME") : env.home? = env'.home? := by
  unfold Environment.home?
  rw [h.get? hname hhome, h.accountHome]

end Environment

open Environment (Finds SameBut)

variable {name : String} {env env' : Environment}

/-! ## Texts -/

namespace Settings

/-- A reference that finds a variable. -/
def Piece.Finds (name : String) : Piece → Prop
  | .char _ => False
  | .reference other => Environment.Finds name (String.ofList other)

instance (name : String) (piece : Piece) : Decidable (piece.Finds name) :=
  match piece with
  | .char _ => inferInstanceAs (Decidable False)
  | .reference other => inferInstanceAs (Decidable (Environment.Finds name (String.ofList other)))

/-- A text without a reference that finds the variable. -/
def Spares (name text : String) : Prop := ∀ piece ∈ Piece.split text.toList, ¬ piece.Finds name

instance (name text : String) : Decidable (Spares name text) :=
  inferInstanceAs (Decidable (∀ _ ∈ _, _))

/-- **A text that spares a variable** stands for the same whatever that holds. -/
theorem Spares.fill {text : String} (htext : Spares name text) (h : SameBut name env env')
    (hname : '=' ∉ name.toList) : fill env text = fill env' text := by
  have hvalue : ∀ piece ∈ Piece.split text.toList, piece.value env = piece.value env' := by
    intro piece hpiece
    have hspared := htext piece hpiece
    cases piece with
    | char c => rfl
    | reference other =>
      have hget : env.get? (String.ofList other) = env'.get? (String.ofList other) :=
        h.get? hname hspared
      simp only [Piece.value, Environment.getD, hget]
  unfold Settings.fill
  rw [List.flatMap_congr hvalue]

end Settings

/-! ## Paths -/

namespace Host

/-- A reference that finds a variable. -/
def Piece.Finds (name : String) : Piece → Prop
  | .char _ => False
  | .reference other _ => Environment.Finds name (String.ofList other)

instance (name : String) (piece : Piece) : Decidable (piece.Finds name) :=
  match piece with
  | .char _ => inferInstanceAs (Decidable False)
  | .reference other _ => inferInstanceAs (Decidable (Environment.Finds name (String.ofList other)))

/-- A path without a reference that finds the variable. -/
def Spares (name path : String) : Prop := ∀ piece ∈ piecesFrom 0 path.toList, ¬ piece.Finds name

instance (name path : String) : Decidable (Spares name path) :=
  inferInstanceAs (Decidable (∀ _ ∈ _, _))

theorem Spares.fillVariables {path : String} (hpath : Spares name path) (h : SameBut name env env')
    (hname : '=' ∉ name.toList) :
    fillVariables env path.toList = fillVariables env' path.toList := by
  have hvalue : ∀ piece : Piece, ¬ piece.Finds name → piece.value? env = piece.value? env' := by
    intro piece hspared
    cases piece with
    | char c => rfl
    | reference other fallback =>
      have hget : env.get? (String.ofList other) = env'.get? (String.ofList other) :=
        h.get? hname hspared
      simp only [Piece.value?, hget]
  have hpieces : ∀ pieces : List Piece, (∀ piece ∈ pieces, ¬ piece.Finds name) →
      pieces.mapM (Piece.value? env) = pieces.mapM (Piece.value? env') := by
    intro pieces
    induction pieces with
    | nil => exact fun _ => rfl
    | cons piece pieces ih =>
      intro hspared
      obtain ⟨hfirst, hrest⟩ := List.forall_mem_cons.1 hspared
      rw [List.mapM_cons, List.mapM_cons, hvalue piece hfirst, ih hrest]
  unfold Host.fillVariables
  rw [hpieces _ hpath]

/-- **A path that spares a variable** stands for the same whatever that holds. -/
theorem Spares.expand {path : String} (hpath : Spares name path) (h : SameBut name env env')
    (hname : '=' ∉ name.toList) (hhome : ¬ Environment.Finds name "HOME") :
    expand env path = expand env' path := by
  have hleading : ∀ s, fillHome env s = fillHome env' s := by
    intro s
    unfold fillHome
    rw [h.home? hname hhome]
  unfold Host.expand expandChars
  rw [hpath.fillVariables h hname]
  simp only [hleading]

end Host

end TreeShell
