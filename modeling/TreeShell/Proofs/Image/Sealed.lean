import TreeShell.Image.Json
import TreeShell.Proofs.Json.Scalar
import TreeShell.Proofs.Text.Cut

/-!
# What the checksum of an image protects

The checksum is over one text, in which the fields stand one after the other with separators
between them, and the fields may hold the separators. So two images can have the same text under the
checksum, and then the checksum of one is the checksum of the other.

* `Content`: what an image says, without the checksum. `Plain`: no field holds a separator.
* `verify_under`: an image is accepted with the checksum of another one iff their digests agree.
* `plain_inj`: the text of a plain content determines it among the plain ones.
* `tight_inj`, `exists_twin`: **the text determines a content iff that enables a single command**,
  and no field holds a separator.
* `tampering`: what that says of tampered images.
-/

namespace TreeShell

/-! ## Bytes of a text -/

namespace Text

/-- The loop behind `toList` with `n` bytes to go. -/
theorem toList_loop (bytes : ByteArray) (n i : Nat) (read : List UInt8) (hn : i + n = bytes.size) :
    ByteArray.toList.loop bytes i read = read.reverse ++ bytes.data.toList.drop i := by
  have hlength : bytes.data.toList.length = bytes.size := rfl
  induction n generalizing i read with
  | zero =>
    rw [ByteArray.toList.loop, if_neg (by omega), List.drop_eq_nil_of_le (by omega),
      List.append_nil]
  | succ n ih =>
    have hi : i < bytes.size := by omega
    have hget : bytes.get! i = bytes.data.toList[i] := by
      simp only [ByteArray.get!, Array.getElem_toList]
      exact getElem!_pos bytes.data i hi
    rw [ByteArray.toList.loop, if_pos hi, ih (i + 1) _ (by omega), hget, List.reverse_cons,
      List.append_assoc, List.singleton_append, ← List.drop_eq_getElem_cons]

/-- The bytes of a text in UTF-8 determine it. -/
theorem utf8_inj {s t : String} : s.toUTF8.toList = t.toUTF8.toList ↔ s = t := by
  have hdata : ∀ bytes : ByteArray, bytes.toList = bytes.data.toList :=
    fun bytes => toList_loop bytes bytes.size 0 [] (Nat.zero_add _)
  rw [hdata, hdata, Array.toList_inj]
  exact ⟨fun h => String.toByteArray_inj.mp (ByteArray.ext h), fun h => h ▸ rfl⟩

end Text

namespace Sha256

theorem hexByte_inj {b c : UInt8} (h : hexByte b = hexByte c) : b = c := by
  obtain ⟨hhigh, hlow⟩ := List.cons.inj h
  have hb := b.toNat_lt
  have hc := c.toNat_lt
  have hdigit : ∀ m n, m < 16 → n < 16 → Text.hexDigit m = Text.hexDigit n → m = n := by
    intro m n hm hn hd
    have hvalue := Json.hexValue?_hexDigit m hm
    rw [hd, Json.hexValue?_hexDigit n hn] at hvalue
    exact (Option.some.inj hvalue).symm
  have h1 := hdigit _ _ (by omega) (by omega) hhigh
  have h0 := hdigit _ _ (by omega) (by omega) (List.cons.inj hlow).1
  exact UInt8.toNat_inj.mp (by omega)

/-- The hexadecimal digits determine the digest. -/
theorem hex_inj {m n : List UInt8} : hex m = hex n ↔ digest m = digest n := by
  have hflat : ∀ bs cs : List UInt8, bs.flatMap hexByte = cs.flatMap hexByte → bs = cs := by
    intro bs
    induction bs with
    | nil =>
      intro cs h
      cases cs with
      | nil => rfl
      | cons c cs => simp [hexByte] at h
    | cons b bs ih =>
      intro cs h
      cases cs with
      | nil => simp [hexByte] at h
      | cons c cs =>
        rw [List.flatMap_cons, List.flatMap_cons] at h
        obtain ⟨hbyte, hrest⟩ := List.append_inj h rfl
        rw [hexByte_inj hbyte, ih cs hrest]
  unfold hex
  rw [String.ofList_inj]
  exact ⟨hflat _ _, fun h => h ▸ rfl⟩

end Sha256

namespace Image

/-! ## The text under the checksum -/

/-- What an image says. -/
structure Content where
  name : String
  version : String
  commands : List String
deriving DecidableEq

namespace Content

variable {c d : Content}

/-- The bytes under the checksum. -/
def bytes (c : Content) : List UInt8 := (sealed c.name c.version c.commands).toUTF8.toList

/-- The checksum of an image with this content. -/
def checksum (c : Content) : String := checksumOf c.name c.version c.commands

/-- The image with this content under some checksum. -/
def under (c : Content) (checksum : String) : Image :=
  { name := c.name, version := c.version, commands := c.commands, checksum }

/-- No field holds a separator that stands behind it, and no command is empty. -/
structure Plain (c : Content) : Prop where
  name : '\n' ∉ c.name.toList
  version : '\n' ∉ c.version.toList
  commands : ∀ x ∈ c.commands, x ≠ "" ∧ ',' ∉ x.toList

/-- A plain content with a single command, of a single line. -/
structure Tight (c : Content) : Prop where
  plain : c.Plain
  single : ∃ x, c.commands = [x] ∧ '\n' ∉ x.toList

theorem bytes_eq : d.bytes = c.bytes ↔
    sealed d.name d.version d.commands = sealed c.name c.version c.commands := Text.utf8_inj

/-- An image is accepted with the checksum of another one iff their digests agree. -/
theorem verify_under (c d : Content) : (d.under c.checksum).verify =
    if Sha256.digest d.bytes = Sha256.digest c.bytes then .ok ()
    else .error (.mismatch d.name d.version) := by
  have hsound : (d.under c.checksum).isSound = true ↔
      Sha256.digest d.bytes = Sha256.digest c.bytes := by
    rw [← Sha256.hex_inj]
    exact decide_eq_true_iff
  unfold verify
  simp only [hsound]
  rfl

/-! ## Plain contents -/

theorem toList_sealed (name version : String) (commands : List String) :
    (sealed name version commands).toList =
      name.toList ++ '\n' :: (version.toList ++ '\n' :: (",".intercalate commands).toList) := by
  simp [sealed]

/-- Names that are not empty and hold no comma can be told apart after they are joined. -/
theorem joined_inj {xs ys : List String} (hxs : ∀ x ∈ xs, x ≠ "" ∧ ',' ∉ x.toList)
    (hys : ∀ y ∈ ys, y ≠ "" ∧ ',' ∉ y.toList) (h : ",".intercalate xs = ",".intercalate ys) :
    xs = ys := by
  have hchars :
      [','].intercalate (xs.map String.toList) = [','].intercalate (ys.map String.toList) := by
    have hcomma : ",".toList = [','] := rfl
    rw [← hcomma, ← String.toList_intercalate, ← String.toList_intercalate, h]
  have hcut : ∀ zs : List String, (∀ z ∈ zs, z ≠ "" ∧ ',' ∉ z.toList) → zs ≠ [] →
      ([','].intercalate (zs.map String.toList)).splitOn ',' = zs.map String.toList := by
    intro zs hzs hne
    refine List.splitOn_intercalate ',' ?_ (by simpa using hne)
    intro l hl
    obtain ⟨z, hz, rfl⟩ := List.mem_map.mp hl
    exact (hzs z hz).2
  have hnil : ∀ zs : List String, (∀ z ∈ zs, z ≠ "" ∧ ',' ∉ z.toList) →
      [','].intercalate (zs.map String.toList) = [] → zs = [] := by
    intro zs hzs hjoined
    by_cases hne : zs = []
    · exact hne
    · have hlists := hcut zs hzs hne
      rw [hjoined] at hlists
      obtain ⟨z, rfl, hz⟩ := List.map_eq_singleton_iff.mp hlists.symm
      exact absurd (String.toList_eq_nil_iff.mp hz) (hzs z (by simp)).1
  by_cases hx : xs = []
  · rw [hx] at hchars
    rw [hx, hnil ys hys hchars.symm]
  · have hy : ys ≠ [] := fun hy => hx (hnil xs hxs (by rw [hchars, hy]; rfl))
    have hlists : xs.map String.toList = ys.map String.toList := by
      rw [← hcut xs hxs hx, hchars, hcut ys hys hy]
    exact (List.map_inj_right fun _ _ => String.toList_inj.mp).mp hlists

/-- **The text under the checksum determines a plain content** among the plain ones. -/
theorem plain_inj (hc : c.Plain) (hd : d.Plain) (h : d.bytes = c.bytes) : d = c := by
  have htext := congrArg String.toList (bytes_eq.mp h)
  rw [toList_sealed, toList_sealed, Text.append_cons_inj hd.name hc.name,
    Text.append_cons_inj hd.version hc.version] at htext
  obtain ⟨hname, hversion, hjoined⟩ := htext
  have hcommands := joined_inj hd.commands hc.commands (String.toList_inj.mp hjoined)
  rw [String.toList_inj] at hname hversion
  cases c; cases d
  simp only at hname hversion hcommands
  rw [hname, hversion, hcommands]

/-! ## Contents with one text -/

theorem ne_longer (a b : String) : a ≠ a ++ "\n" ++ b := by
  intro h
  have hlength := congrArg String.length h
  simp only [String.length_append] at hlength
  have hbreak : "\n".length = 1 := rfl
  omega

/-! A name with several lines may as well end in the version, and a version in the commands. -/

theorem sealed_name (a b version : String) (x : String) :
    sealed (a ++ "\n" ++ b) version [x] = sealed a b [version ++ "\n" ++ x] := by
  simp [sealed, String.append_assoc]

theorem sealed_version (name a b : String) (x : String) :
    sealed name (a ++ "\n" ++ b) [x] = sealed name a [b ++ "\n" ++ x] := by
  simp [sealed, String.append_assoc]

/-- Commands can be read as one, whose name they make up together. -/
theorem sealed_commands (name version : String) (commands : List String) :
    sealed name version [",".intercalate commands] = sealed name version commands := by
  simp [sealed]

/-- **Only a tight content is determined by its text.** Any other has a twin. -/
theorem exists_twin (hc : ¬ c.Tight) : ∃ d, d.bytes = c.bytes ∧ d ≠ c := by
  obtain ⟨name, version, commands⟩ := c
  by_cases hsingle : ∃ x, commands = [x]
  · obtain ⟨x, rfl⟩ := hsingle
    by_cases hname : '\n' ∈ name.toList
    · obtain ⟨a, b, -, rfl⟩ := Text.exists_cut "\n" rfl hname
      refine ⟨⟨a, b, [version ++ "\n" ++ x]⟩, bytes_eq.mpr (sealed_name a b version x).symm, ?_⟩
      exact fun heq => ne_longer a b (Content.mk.inj heq).1
    by_cases hversion : '\n' ∈ version.toList
    · obtain ⟨a, b, -, rfl⟩ := Text.exists_cut "\n" rfl hversion
      refine ⟨⟨name, a, [b ++ "\n" ++ x]⟩, bytes_eq.mpr (sealed_version name a b x).symm, ?_⟩
      exact fun heq => ne_longer a b (Content.mk.inj heq).2.1
    by_cases hline : '\n' ∈ x.toList
    · obtain ⟨a, b, -, rfl⟩ := Text.exists_cut "\n" rfl hline
      have htext := sealed_name name version a b
      refine ⟨⟨name ++ "\n" ++ version, a, [b]⟩, bytes_eq.mpr htext, ?_⟩
      exact fun heq => ne_longer name version (Content.mk.inj heq).1.symm
    by_cases hempty : x = ""
    · subst hempty
      exact ⟨⟨name, version, []⟩, rfl, by simp [Content.mk.injEq]⟩
    by_cases hcomma : ',' ∈ x.toList
    · -- the name is that of several commands, cut at the commas
      have hpieces : ",".intercalate ((x.toList.splitOn ',').map String.ofList) = x :=
        Text.intercalate_cut rfl x
      refine ⟨⟨name, version, (x.toList.splitOn ',').map String.ofList⟩, bytes_eq.mpr ?_, ?_⟩
      · rw [← sealed_commands, hpieces]
      · intro heq
        obtain ⟨l, hl, rfl⟩ := List.map_eq_singleton_iff.mp (Content.mk.inj heq).2.2
        rw [String.toList_ofList] at hl hcomma
        have hmem : l ∈ l.splitOn ',' := by
          rw [hl]
          exact List.mem_singleton_self l
        exact Text.notMem_of_mem_splitOn hmem hcomma
    · refine absurd ⟨⟨hname, hversion, fun y hy => ?_⟩, x, rfl, hline⟩ hc
      obtain rfl := List.mem_singleton.mp hy
      exact ⟨hempty, hcomma⟩
  · refine ⟨⟨name, version, [",".intercalate commands]⟩, ?_, ?_⟩
    · exact bytes_eq.mpr (sealed_commands name version commands)
    · intro heq
      exact hsingle ⟨_, (Content.mk.inj heq).2.2.symm⟩

/-- A tight content is determined by its text, in which there are no lines but the three. -/
theorem tight_inj (hc : c.Tight) (h : d.bytes = c.bytes) : d = c := by
  obtain ⟨x, hx, hline⟩ := hc.single
  have htext := congrArg String.toList (bytes_eq.mp h)
  rw [toList_sealed, toList_sealed, hx] at htext
  -- two line breaks on one side, so the two separators are all there are on the other
  have hcount := congrArg (List.count '\n') htext
  simp only [List.count_append, List.count_cons_self, String.intercalate_singleton,
    List.count_eq_zero.mpr hc.plain.name, List.count_eq_zero.mpr hc.plain.version,
    List.count_eq_zero.mpr hline] at hcount
  have hname : '\n' ∉ d.name.toList := List.count_eq_zero.mp (by omega)
  have hversion : '\n' ∉ d.version.toList := List.count_eq_zero.mp (by omega)
  rw [Text.append_cons_inj hname hc.plain.name,
    Text.append_cons_inj hversion hc.plain.version] at htext
  obtain ⟨hn, hv, hjoined⟩ := htext
  rw [String.intercalate_singleton, String.toList_inj] at hjoined
  have hxplain := hc.plain.commands x (by rw [hx]; exact List.mem_singleton_self x)
  have hcommands : d.commands = [x] := by
    match hds : d.commands with
    | [] =>
      rw [hds] at hjoined
      exact absurd hjoined.symm hxplain.1
    | [y] =>
      rw [hds, String.intercalate_singleton] at hjoined
      rw [hjoined]
    | y :: z :: ds =>
      rw [hds, String.intercalate_cons_cons] at hjoined
      refine absurd ?_ hxplain.2
      rw [← hjoined]
      simp
  rw [String.toList_inj] at hn hv
  cases c; cases d
  simp only at hn hv hx hcommands
  rw [hn, hv, hcommands, hx]

/-- An image with the content `d` is accepted with the checksum computed for `c`. -/
def Passes (d c : Content) : Prop := (d.under c.checksum).verify = .ok ()

/-- The digest is the same for two texts that differ. -/
def Collides (d c : Content) : Prop :=
  d.bytes ≠ c.bytes ∧ Sha256.digest d.bytes = Sha256.digest c.bytes

theorem passes_iff : d.Passes c ↔ Sha256.digest d.bytes = Sha256.digest c.bytes := by
  unfold Passes
  rw [verify_under]
  split
  · rename_i h
    exact ⟨fun _ => h, fun _ => rfl⟩
  · rename_i h
    exact ⟨fun hok => (nomatch hok), fun hdigest => absurd hdigest h⟩

/-- Where the text determines the content, only a collision lets another one pass. -/
theorem Passes.collides (h : d.Passes c) (hne : d ≠ c) (hinj : d.bytes = c.bytes → d = c) :
    d.Collides c := ⟨fun hbytes => hne (hinj hbytes), passes_iff.mp h⟩

/-- **What the checksum of a content protects.** An image with other fields is refused, with its
name and version, unless the digests agree. If neither content holds a separator, and always if the
content is tight, that takes a collision. For any other content there is an image with other fields
and the same text, which passes. -/
theorem tampering (c : Content) :
    (∀ d : Content, (d.under c.checksum).verify =
      if Sha256.digest d.bytes = Sha256.digest c.bytes then .ok ()
      else .error (.mismatch d.name d.version)) ∧
    (c.Plain → ∀ d : Content, d.Plain → d ≠ c → d.Passes c → d.Collides c) ∧
    (c.Tight → ∀ d : Content, d ≠ c → d.Passes c → d.Collides c) ∧
    (¬ c.Tight → ∃ d : Content, d ≠ c ∧ d.bytes = c.bytes ∧ d.Passes c) := by
  refine ⟨verify_under c, ?_, ?_, ?_⟩
  · intro hc d hd hne hpass
    exact hpass.collides hne (plain_inj hc hd)
  · intro hc d hne hpass
    exact hpass.collides hne (tight_inj hc)
  · intro hc
    obtain ⟨d, hbytes, hne⟩ := exists_twin hc
    exact ⟨d, hne, hbytes, passes_iff.mpr (congrArg Sha256.digest hbytes)⟩

/-- **The canonical image with all its commands in one name passes**, under the canonical checksum:
the text under the checksum is the same. -/
theorem canonical_merged :
    let merged : Content := ⟨"vsh", "0.1.0",
      ["ls,cat,help,exit,clear,cd,echo,mkdir,rmdir,rm,touch,cp,mv,pwd,grep"]⟩
    let genuine : Content := ⟨canonical.name, canonical.version, canonical.commands⟩
    merged ≠ genuine ∧ merged.bytes = genuine.bytes ∧
      (merged.under canonical.checksum).verify = .ok () := by
  intro merged genuine
  have hbytes : merged.bytes = genuine.bytes := bytes_eq.mpr (sealed_commands _ _ genuine.commands)
  have hne : merged ≠ genuine := by decide
  have hpass : merged.Passes genuine := passes_iff.mpr (congrArg Sha256.digest hbytes)
  have hchecksum : canonical.checksum = genuine.checksum := by
    simp only [genuine, canonical, make, Content.checksum]
  refine ⟨hne, hbytes, ?_⟩
  rw [hchecksum]
  exact hpass

end Content

end Image

end TreeShell
