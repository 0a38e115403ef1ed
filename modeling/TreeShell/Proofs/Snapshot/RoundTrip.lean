import TreeShell.Proofs.Json.Fields
import TreeShell.Proofs.Snapshot.Restore
import TreeShell.Snapshot.Json

/-!
# Saving and restoring

A tree is kept as the JSON text of its snapshot. Nothing is lost on the way to the text and back.

* `reads_entry`: the printed record of an entry gives the entry.
* `parse_toJson`: **the text of a snapshot gives the snapshot**, whatever its paths and contents are.
* `saved_restored`: **a tree that was saved comes back**, and is saved as the same text again.
* `reloads_ok`: also if that is done any number of times.
-/

namespace TreeShell

open Json Store

/-- An entry without its tag, as the record of its other fields. -/
def Store.Entry.fields : Entry → List (String × Value)
  | .file content => [("content", .text content)]
  | .dir => []

/-- The tag of an entry. -/
def Store.Entry.tag : Entry → String
  | .file _ => "file"
  | .dir => "dir"

theorem entry_value (e : Entry) : e.value = .record (("type", .text e.tag) :: e.fields) := by
  cases e <;> rfl

theorem tag_known (e : Entry) : e.tag ∈ entryTags := by
  cases e <;> simp [Entry.tag, entryTags]

/-- The tag and the other fields of an entry give the entry. -/
theorem entryOf_tagged (e : Entry) : entryOf (e.tag, .record e.fields) = .ok e := by
  cases e with
  | file content => simp [entryOf, Entry.tag, Entry.fields, fileOf, contentField, contentOf, bind,
      Except.bind, Except.map]
  | dir => simp [entryOf, Entry.tag, dirOf]

/-- **An entry is read back** from its record. -/
theorem reads_entry (e : Entry) (depth : Nat) {limit : Nat} {expected : String} (hl : 2 < limit) :
    Reads (asTagged limit "type" entryTags expected) (e.value.print depth)
      (e.tag, .record e.fields) := by
  obtain ⟨limit, rfl⟩ : ∃ n, limit = n + 2 := ⟨limit - 2, by omega⟩
  rw [entry_value, Value.print, printFields_eq, List.map_cons]
  refine reads_tagged e.fields (fun v => v.print (depth + 1)) (tag_known e) ?_ ?_ (by omega)
  · intro x hx
    cases e with
    | file content => rw [List.mem_singleton.1 hx]; simp
    | dir => cases hx
  · intro x hx
    cases e with
    | file content => rw [List.mem_singleton.1 hx]; exact reads_textValue content limit
    | dir => cases hx

namespace Snapshot

/-- The entries of a map make up the map. -/
theorem ofList_toList (m : Std.ExtTreeMap String Entry) : Std.ExtTreeMap.ofList m.toList = m := by
  refine Std.ExtTreeMap.ext_getElem? fun k => ?_
  cases hk : m[k]? with
  | some e =>
    exact Std.ExtTreeMap.getElem?_ofList_of_mem (Std.ReflCmp.compare_self)
      Std.ExtTreeMap.distinct_keys_toList (Std.ExtTreeMap.mem_toList_iff_getElem?_eq_some.2 hk)
  | none =>
    refine Std.ExtTreeMap.getElem?_ofList_of_contains_eq_false ?_
    cases hc : (m.toList.map Prod.fst).contains k with
    | false => rfl
    | true =>
      obtain ⟨x, hx, rfl⟩ := List.mem_map.1 (List.contains_iff_mem.1 hc)
      rw [Std.ExtTreeMap.mem_toList_iff_getElem?_eq_some.1 hx] at hk
      cases hk

/-- The fields of a snapshot as they are printed. -/
def fieldTexts (s : Snapshot) : List (String × List Char) :=
  [("format", (Number.integer s.format).print),
    ("entries", bracketed '\x7b' '\x7d' 1
      (s.entries.toList.map fun x => fieldText x.1 (x.2.value.print 2)))]

theorem value_print (s : Snapshot) :
    s.value.print 0 = bracketed '\x7b' '\x7d' 0 (s.fieldTexts.map fun x => fieldText x.1 x.2) := by
  unfold value fieldTexts
  simp only [Value.print, printFields_eq, List.map_cons, List.map_nil, List.map_map]
  rfl

/-- The printed fields fill a draft with what the snapshot holds. -/
theorem fills_fieldTexts (s : Snapshot) (h : s.format ≤ 0xFFFFFFFF) {depth : Nat} (hd : 4 < depth) :
    Fills (shape depth).fields (shape depth).blank s.fieldTexts
      ⟨some s.format, some s.entries.toList⟩ := by
  have hmap : ∀ x ∈ s.entries.toList, ∃ y,
      Reads (asTagged (depth - 2) "type" entryTags "internally tagged enum MemEntry")
        (x.2.value.print 2) y ∧ entryOf y = .ok x.2 :=
    fun x _ => ⟨_, reads_entry x.2 2 (by omega), entryOf_tagged x.2⟩
  -- a map stands one level deep, an entry two, a content three
  refine .cons rfl rfl (reads_part (reads_nat "u32" h (by decide)) _) ?_
  refine .cons rfl rfl (reads_part (reads_map s.entries.toList (fun e => e.value.print 2) hmap ?_) _) ?_
  · omega
  · exact .nil _

/-- **The text of a snapshot gives the snapshot.** -/
theorem parse_toJson (s : Snapshot) (h : s.format ≤ 0xFFFFFFFF) : parse s.toJson = .ok s := by
  have hfin : (shape maxDepth).finish ⟨some s.format, some s.entries.toList⟩ = .ok s := by
    simp only [shape, ofList_toList]
  have hr : Reads (asRecord maxDepth (shape maxDepth)) (s.value.print 0) s := by
    rw [value_print]
    exact reads_record (fills_fieldTexts s h (by decide)) hfin (by decide)
  exact hr.whole

theorem ofJson_toJson (s : Snapshot) (h : s.format = currentFormat) : ofJson s.toJson = .ok s := by
  unfold ofJson
  rw [parse_toJson s (by rw [h]; decide)]
  simp only [h, if_true]

end Snapshot

/-- The tree that is read from the text of a tree. -/
def reload (t : Tree) : Except Store.Fault Tree := do
  (← Snapshot.ofJson (Snapshot.ofTree t).toJson).restore

/-- The tree after it was saved and read so many times. -/
def reloads : Nat → Tree → Except Store.Fault Tree
  | 0, t => .ok t
  | n + 1, t => do reloads n (← reload t)

theorem reload_ok {t : Tree} (ht : TreeOK t) : reload t = .ok t := by
  unfold reload
  rw [Snapshot.ofJson_toJson _ rfl]
  exact Snapshot.restore_ofTree ht

theorem reloads_ok {t : Tree} (ht : TreeOK t) (n : Nat) : reloads n t = .ok t := by
  induction n with
  | zero => rfl
  | succ n ih =>
    unfold reloads
    rw [reload_ok ht]
    exact ih

/-- **A tree that was saved comes back.** Whatever requests have made of it, the text of its snapshot
is read back as that snapshot and restored to the same tree, which is saved as the same text again. -/
theorem saved_restored {t : Tree} (h : Reached t) :
    ∃ s t', Snapshot.ofJson (Snapshot.ofTree t).toJson = .ok s ∧ s = Snapshot.ofTree t ∧
      s.restore = .ok t' ∧ (∀ key, t'.get? key = t.get? key) ∧
      (Snapshot.ofTree t').toJson = (Snapshot.ofTree t).toJson :=
  ⟨_, t, Snapshot.ofJson_toJson _ rfl, rfl, Snapshot.restore_ofTree h.ok, fun _ => rfl, rfl⟩

/-- Quotes, control characters and characters beyond the first plane, in a path and in a content. -/
theorem saved_restored_odd : ∃ t s t', Reached t ∧
    t.entries = [("/", .dir), ("/\"é\"", .dir), ("/\"é\"/😀\n", .file "\t\x01\\ \"")] ∧
    Snapshot.ofJson (Snapshot.ofTree t).toJson = .ok s ∧ s.restore = .ok t' ∧
    t'.get? "/\"é\"/😀\n" = some (.file "\t\x01\\ \"") ∧
    (Snapshot.ofTree t').toJson = (Snapshot.ofTree t).toJson := by
  have hr := Reached.asked (.write "\"é\"\\😀\n" "\t\x01\\ \"") .empty
  obtain ⟨s, t', hs, -, ht, hget, hjson⟩ := saved_restored hr
  exact ⟨_, s, t', hr, rfl, hs, ht, (hget _).trans rfl, hjson⟩

end TreeShell
