import TreeShell.Proofs.Json.Scalar
import TreeShell.Proofs.Text.Cut

/-!
# Printed records and maps are read back

* `fieldsFrom`: what is left of a printed record before one of its fields.
* `nextKey_cons`, `nextKey_nil`: the step from field to field, and the end of a record.
* `reads_map`: a printed map comes back if its values do.
* `reads_record`, `reads_tagged`: so does a record of known shape, and one with a tag.
-/

namespace TreeShell.Json

open Text

/-- A field as it is printed. -/
def fieldText (key : String) (value : List Char) : List Char := quotedText key ++ [':', ' '] ++ value

/-- The text of a record at the given depth from behind its opening brace on, or from behind one of
its fields on, if these fields follow. -/
def fieldsFrom (depth : Nat) : Bool → List (List Char) → List Char
  | true, [] => ['\x7d']
  | false, [] => newline depth ++ ['\x7d']
  | first, f :: fs =>
    (if first then [] else [',']) ++ newline (depth + 1) ++ f ++ fieldsFrom depth false fs

variable {α β : Type} {depth fuel : Nat} {first : Bool} {fs : List (List Char)}
  {key : String} {v rest s : List Char}

theorem fieldsFrom_after (depth : Nat) (fs : List (List Char)) :
    fieldsFrom depth false fs =
      fs.flatMap ([','] ++ newline (depth + 1) ++ ·) ++ (newline depth ++ ['\x7d']) := by
  induction fs with
  | nil => rfl
  | cons f fs ih => rw [fieldsFrom, ih, List.flatMap_cons]; simp

theorem printFields_eq (depth : Nat) (fields : List (String × Value)) :
    Value.printFields depth fields = fields.map fun x => fieldText x.1 (x.2.print depth) := by
  induction fields with
  | nil => rfl
  | cons x fields ih => rw [Value.printFields, ih]; rfl

/-- A printed record, field by field. -/
theorem bracketed_fields (depth : Nat) (fs : List (List Char)) :
    bracketed '\x7b' '\x7d' depth fs = '\x7b' :: fieldsFrom depth true fs := by
  cases fs with
  | nil => rfl
  | cons f fs =>
    rw [bracketed, List.map_cons, intercalate_cons_eq, List.flatMap_map, fieldsFrom, fieldsFrom_after]
    · simp
    · simp

/-- Every field takes at least one character. -/
theorem length_fieldsFrom (depth : Nat) (first : Bool) (fs : List (List Char)) :
    fs.length < (fieldsFrom depth first fs).length := by
  induction fs generalizing first with
  | nil => cases first <;> simp [fieldsFrom, newline]
  | cons f fs ih =>
    have := ih false
    cases first <;> simp [fieldsFrom, newline] <;> omega

theorem skipSpace_newline (d : Nat) (s : List Char) : skipSpace (newline d ++ s) = skipSpace s := by
  refine skipSpace_append fun c hc => ?_
  rcases List.mem_cons.1 hc with rfl | hc
  · decide
  · rw [List.eq_of_mem_replicate hc]; decide

/-- Behind a field there is a comma, or the line of the closing brace. -/
theorem ends_fieldsFrom (depth : Nat) (fs : List (List Char)) (rest : List Char) :
    Ends (fieldsFrom depth false fs ++ rest) := by
  intro c hc
  cases fs with
  | nil => cases hc; exact Or.inr (by decide)
  | cons f fs => cases hc; exact Or.inl rfl

theorem skipSpace_nil_fields : skipSpace (fieldsFrom depth first [] ++ rest) = '\x7d' :: rest := by
  have hs : skipSpace ('\x7d' :: rest) = '\x7d' :: rest := skipSpace_cons_solid (by decide)
  cases first with
  | true => exact hs
  | false => rw [fieldsFrom, List.append_assoc, skipSpace_newline]; exact hs

/-- **The end of a record.** -/
theorem nextKey_nil : nextKey first (fieldsFrom depth first [] ++ rest) = .ok none := by
  unfold nextKey; rw [skipSpace_nil_fields]; rfl

/-- **The next field of a record**, behind the quote of its key. -/
theorem nextKey_cons :
    nextKey first (fieldsFrom depth first (fieldText key v :: fs) ++ rest) =
      .ok (some (key.toList.flatMap escaped ++
        '"' :: ':' :: ' ' :: (v ++ (fieldsFrom depth false fs ++ rest)))) := by
  have hq : skipSpace (newline (depth + 1) ++ (fieldText key v ++ (fieldsFrom depth false fs ++ rest))) =
      '"' :: (key.toList.flatMap escaped ++
        '"' :: ':' :: ' ' :: (v ++ (fieldsFrom depth false fs ++ rest))) := by
    rw [skipSpace_newline, fieldText, List.append_assoc, List.append_assoc, quotedText_append]
    exact skipSpace_cons_solid (by decide)
  have hc : ∀ t, skipSpace (',' :: t) = ',' :: t := fun t => skipSpace_cons_solid (by decide)
  unfold nextKey
  cases first with
  | true =>
    simp only [fieldsFrom, if_true, List.nil_append, List.append_assoc]
    rw [hq]; rfl
  | false =>
    simp only [fieldsFrom, Bool.false_eq_true, if_false, List.cons_append, List.nil_append,
      List.append_assoc]
    rw [hc]
    simp [hq]

theorem readColon_colon : readColon (':' :: s) = .ok s := by
  have hs : skipSpace (':' :: s) = ':' :: s := skipSpace_cons_solid (by decide)
  unfold readColon; rw [hs]; rfl

theorem enter_ok {limit : Nat} (h : 1 < limit) : enter limit s = .ok () :=
  if_neg (Nat.not_le.2 h)

/-! ## Maps -/

/-- What reading the next field with a value of its own kind comes to. -/
theorem readEntries_fields {one : Reader β} {fit : β → Except Cause α} (fuel : Nat) (first : Bool)
    (xs : List (String × α)) (print : α → List Char)
    (hx : ∀ x ∈ xs, ∃ y, Reads one (print x.2) y ∧ fit y = .ok x.2) (hf : xs.length < fuel) :
    readEntries one fit fuel first
      (fieldsFrom depth first (xs.map fun x => fieldText x.1 (print x.2)) ++ rest) = .ok (xs, rest) := by
  induction xs generalizing fuel first with
  | nil =>
    obtain ⟨fuel, rfl⟩ := Nat.exists_eq_add_one_of_ne_zero (Nat.ne_zero_of_lt hf)
    simp only [readEntries, List.map_nil, nextKey_nil, skipSpace_nil_fields, bind, Except.bind]
    rfl
  | cons x xs ih =>
    obtain ⟨fuel, rfl⟩ := Nat.exists_eq_add_one_of_ne_zero (Nat.ne_zero_of_lt hf)
    obtain ⟨y, hr, hy⟩ := hx x List.mem_cons_self
    have hone := hr.behind_blank
      (ends_fieldsFrom depth (xs.map fun x => fieldText x.1 (print x.2)) rest)
    have hxs := ih fuel false (fun z hz => hx z (List.mem_cons_of_mem _ hz)) (by simp at hf; omega)
    rw [List.map_cons]
    simp only [readEntries, nextKey_cons, readText_escaped, readColon_colon, hone, hy, hxs, bind,
      Except.bind]

/-- **A printed map is read back** if its values are. -/
theorem reads_map {one : Reader β} {fit : β → Except Cause α} (xs : List (String × α))
    (print : α → List Char)
    (hx : ∀ x ∈ xs, ∃ y, Reads one (print x.2) y ∧ fit y = .ok x.2) {limit : Nat} (hl : 1 < limit) :
    Reads (asMap limit one fit)
      (bracketed '\x7b' '\x7d' depth (xs.map fun x => fieldText x.1 (print x.2))) xs := by
  rw [bracketed_fields]
  refine ⟨⟨_, _, rfl, by decide⟩, fun s rest hs _ => ?_⟩
  -- the fuel is the length of the text, and every field takes part of it
  unfold asMap
  rw [hs, List.cons_append]
  show (enter limit _ >>= fun _ => readEntries one fit _ true _) = _
  rw [enter_ok hl]
  refine readEntries_fields _ true xs print hx ?_
  have := length_fieldsFrom depth true (xs.map fun x => fieldText x.1 (print x.2))
  rw [List.length_map] at this
  rw [List.length_append]; omega

/-! ## Records of known shape -/

/-- Fields with their printed values, in an order in which they take one draft of a record to
another. -/
inductive Fills (fields : List (Field α)) : α → List (String × List Char) → α → Prop
  | nil (draft : α) : Fills fields draft [] draft
  | cons {draft draft' draft'' : α} {key : String} {v : List Char} {field : Field α}
      {items : List (String × List Char)} (known : fields.find? (·.key = key) = some field)
      (new : field.given draft = false) (value : Reads (field.read draft) v draft')
      (others : Fills fields draft' items draft'') : Fills fields draft ((key, v) :: items) draft''

theorem reads_part {get : α → Option β} {put : β → α → α} {one : Reader β} {x : β}
    (h : Reads one v x) (draft : α) :
    Reads ((Field.part key get put one).read draft) v (put x draft) := by
  refine ⟨h.solid, fun s rest hs he => ?_⟩
  simp only [Field.part, h.read s rest hs he, bind, Except.bind]

theorem readNamed_fields {fields : List (Field α)} {draft draft' : α}
    {items : List (String × List Char)} (h : Fills fields draft items draft') (fuel : Nat)
    (first : Bool) (hf : items.length < fuel) :
    readNamed fields fuel first draft
      (fieldsFrom depth first (items.map fun x => fieldText x.1 x.2) ++ rest) =
        .ok (draft', '\x7d' :: rest) := by
  induction h generalizing fuel first with
  | nil draft =>
    obtain ⟨fuel, rfl⟩ := Nat.exists_eq_add_one_of_ne_zero (Nat.ne_zero_of_lt hf)
    simp only [readNamed, List.map_nil, nextKey_nil, skipSpace_nil_fields, bind, Except.bind]
  | @cons draft draft' draft'' key v field items known new value others ih =>
    obtain ⟨fuel, rfl⟩ := Nat.exists_eq_add_one_of_ne_zero (Nat.ne_zero_of_lt hf)
    have hv := value.behind_blank
      (ends_fieldsFrom depth (items.map fun x => fieldText x.1 x.2) rest)
    have hrest := ih fuel false (by simp at hf; omega)
    rw [List.map_cons]
    simp only [readNamed, nextKey_cons, readText_escaped, known, new, readColon_colon, hv, hrest, bind,
      Except.bind, Bool.false_eq_true, if_false]

/-- **A printed record is read back** if its fields fill a draft of it. -/
theorem reads_record {shape : Shape α β} {draft : α} {record : β}
    {items : List (String × List Char)} (h : Fills shape.fields shape.blank items draft)
    (hfin : shape.finish draft = .ok record) {limit : Nat} (hl : 1 < limit) :
    Reads (asRecord limit shape)
      (bracketed '\x7b' '\x7d' depth (items.map fun x => fieldText x.1 x.2)) record := by
  rw [bracketed_fields]
  refine ⟨⟨_, _, rfl, by decide⟩, fun s rest hs _ => ?_⟩
  have hlen := length_fieldsFrom depth true (items.map fun x => fieldText x.1 x.2)
  rw [List.length_map] at hlen
  unfold asRecord
  rw [hs, List.cons_append]
  show (enter limit _ >>= fun _ => _) = _
  rw [enter_ok hl]
  simp only [bind, Except.bind]
  rw [readNamed_fields h _ true (by rw [List.length_append]; omega)]
  simp only [hfin, List.drop_one, List.tail_cons]

/-! ## Records with a tag -/

theorem readTagged_fields {tag name : String} {known : List String} {limit : Nat} (fuel : Nat)
    (first : Bool) (xs : List (String × Value)) (print : Value → List Char)
    (hne : ∀ x ∈ xs, x.1 ≠ tag)
    (hx : ∀ x ∈ xs, Reads (readValue limit) (print x.2) x.2) (hf : xs.length < fuel) :
    readTagged limit tag known fuel first (some name)
      (fieldsFrom depth first (xs.map fun x => fieldText x.1 (print x.2)) ++ rest) =
        .ok ((some name, xs), '\x7d' :: rest) := by
  induction xs generalizing fuel first with
  | nil =>
    obtain ⟨fuel, rfl⟩ := Nat.exists_eq_add_one_of_ne_zero (Nat.ne_zero_of_lt hf)
    simp only [readTagged, List.map_nil, nextKey_nil, skipSpace_nil_fields, bind, Except.bind]
  | cons x xs ih =>
    obtain ⟨fuel, rfl⟩ := Nat.exists_eq_add_one_of_ne_zero (Nat.ne_zero_of_lt hf)
    have hv := (hx x List.mem_cons_self).behind_blank
      (ends_fieldsFrom depth (xs.map fun x => fieldText x.1 (print x.2)) rest)
    have hxs := ih fuel false (fun z hz => hne z (List.mem_cons_of_mem _ hz))
      (fun z hz => hx z (List.mem_cons_of_mem _ hz)) (by simp at hf; omega)
    have hk : x.1 ≠ tag := hne x List.mem_cons_self
    rw [List.map_cons]
    simp only [readTagged, nextKey_cons, readText_escaped, readColon_colon, hv, hxs, hk, if_false, bind,
      Except.bind]

/-- **A printed record whose first field is its tag is read back** if its other fields are. -/
theorem reads_tagged {tag name expected : String} {known : List String} {limit : Nat}
    (xs : List (String × Value)) (print : Value → List Char) (hname : name ∈ known)
    (hne : ∀ x ∈ xs, x.1 ≠ tag) (hx : ∀ x ∈ xs, Reads (readValue (limit - 1)) (print x.2) x.2)
    (hl : 1 < limit) :
    Reads (asTagged limit tag known expected)
      (bracketed '\x7b' '\x7d' depth
        (fieldText tag (quotedText name) :: xs.map fun x => fieldText x.1 (print x.2)))
      (name, .record xs) := by
  rw [bracketed_fields]
  refine ⟨⟨_, _, rfl, by decide⟩, fun s rest hs _ => ?_⟩
  have hlen := length_fieldsFrom depth true
    (fieldText tag (quotedText name) :: xs.map fun x => fieldText x.1 (print x.2))
  rw [List.length_cons, List.length_map] at hlen
  have hv := (reads_variant hname).behind_blank
    (ends_fieldsFrom depth (xs.map fun x => fieldText x.1 (print x.2)) rest)
  unfold asTagged
  rw [hs, List.cons_append]
  show (enter limit _ >>= fun _ => _) = _
  rw [enter_ok hl]
  simp only [readTagged, nextKey_cons, readText_escaped, readColon_colon, hv, if_true, bind,
    Except.bind, Option.isSome_none, Bool.false_eq_true, if_false]
  rw [readTagged_fields _ false xs print hne hx (by rw [List.length_append]; omega)]
  simp only [List.drop_one, List.tail_cons]

end TreeShell.Json
