import TreeShell.Image.Json
import TreeShell.Proofs.Json.Items

/-!
# The text of an image gives the image

* `ofJson_toJson`: **what was written for an image is read back as that image**, whatever it holds.
* `verify_make`: an image made with its checksum is sound.
* `load_mismatch`: one whose checksum cannot be a digest is refused.
-/

namespace TreeShell.Image

open Json

/-- The fields of an image as they are printed. -/
def fieldTexts (i : Image) : List (String × List Char) :=
  [("name", quotedText i.name), ("version", quotedText i.version),
    ("commands", bracketed '[' ']' 1 (i.commands.map quotedText)),
    ("checksum", quotedText i.checksum)]

theorem printItems_text (depth : Nat) (texts : List String) :
    Value.printItems depth (texts.map .text) = texts.map quotedText := by
  induction texts with
  | nil => rfl
  | cons text texts ih =>
    rw [List.map_cons, Value.printItems, ih]
    rfl

theorem value_print (i : Image) :
    i.value.print 0 = bracketed '\x7b' '\x7d' 0 (i.fieldTexts.map fun x => fieldText x.1 x.2) := by
  unfold value fieldTexts
  simp only [Value.print, printFields_eq, printItems_text, List.map_cons, List.map_nil]

theorem item_text (s : String) : Item asText (quotedText s) s :=
  ⟨reads_text s, by simp [quotedText]⟩

/-- The printed fields fill a draft with what the image holds. -/
theorem fills_fieldTexts (i : Image) {depth : Nat} (hd : 2 < depth) :
    Fills (shape depth).fields (shape depth).blank i.fieldTexts
      ⟨some i.name, some i.version, some i.commands, some i.checksum⟩ := by
  have hcommands : Reads (asList (depth - 1) asText)
      (bracketed '[' ']' 1 (i.commands.map quotedText)) i.commands :=
    reads_list i.commands quotedText (fun x _ => item_text x) (by omega)
  refine .cons rfl rfl (reads_part (reads_text i.name) _) ?_
  refine .cons rfl rfl (reads_part (reads_text i.version) _) ?_
  refine .cons rfl rfl (reads_part hcommands _) ?_
  refine .cons rfl rfl (reads_part (reads_text i.checksum) _) ?_
  exact .nil _

/-- **The text of an image gives the image.** -/
theorem ofJson_toJson (i : Image) : ofJson i.toJson = .ok i := by
  have hread : Reads (asRecord maxDepth (shape maxDepth)) (i.value.print 0) i := by
    rw [value_print]
    exact reads_record (i.fills_fieldTexts (by decide)) rfl (by decide)
  exact hread.whole

theorem verify_make (name version : String) (commands : List String) :
    (make name version commands).verify = .ok () := by
  have hsound : (make name version commands).isSound = true := decide_eq_true rfl
  unfold verify
  rw [if_pos hsound]

/-- An image is loaded iff the text gives it and its checksum is its own. -/
theorem load_ok {text : String} {i : Image} :
    load text = .ok i ↔ ofJson text = .ok i ∧ i.verify = .ok () := by
  unfold load
  cases ofJson text with
  | error r => exact ⟨fun h => (nomatch h), fun h => (nomatch h.1)⟩
  | ok j =>
    show (j.verify).map (fun _ => j) = _ ↔ _
    constructor
    · intro h
      cases hj : j.verify with
      | error f =>
        rw [hj] at h
        cases h
      | ok u =>
        rw [hj] at h
        cases h
        exact ⟨rfl, hj⟩
    · rintro ⟨hij, hi⟩
      cases hij
      rw [hi]
      rfl

theorem length_hex (message : List UInt8) : (Sha256.hex message).toList.length = 64 := by
  unfold Sha256.hex
  rw [String.toList_ofList]
  simp [Sha256.digest, Sha256.hexByte, Sha256.bigEndian]

/-- An image whose checksum cannot be a digest is refused. -/
theorem load_mismatch {i : Image} (h : i.checksum.toList.length ≠ 64) :
    load i.toJson = .error (.mismatch i.name i.version) := by
  have hunsound : ¬ i.isSound = true := by
    intro hsound
    have hsum : checksumOf i.name i.version i.commands = i.checksum := of_decide_eq_true hsound
    rw [← hsum] at h
    exact h (length_hex _)
  have hverify : i.verify = .error (.mismatch i.name i.version) := if_neg hunsound
  unfold load
  rw [ofJson_toJson]
  show (i.verify).map (fun _ => i) = _
  rw [hverify]
  rfl

end TreeShell.Image
