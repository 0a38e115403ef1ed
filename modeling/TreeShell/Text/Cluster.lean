import TreeShell.Text.Invisible

/-!
# Characters as they are seen

What a reader takes for one character can be several: a letter with its marks, a syllable of
Hangul, a flag, a picture joined from others. Such a cluster is taken back as a whole.

* `Joint`: how a character joins its neighbours, by the Unicode property Grapheme_Cluster_Break.
* `clusters`: a line cut between characters that do not join; the cuts lose nothing
  (`flatten_clusters`).
* `takeBack`: a line in which each backspace has taken back the cluster before it.
-/

namespace TreeShell.Text

/-- How a character joins its neighbours. -/
inductive Joint
  /-- Joins nothing. -/
  | apart
  /-- A mark, which joins what stands before it. -/
  | mark
  /-- The sign that joins two pictures. -/
  | joiner
  /-- Joins what stands behind it. -/
  | front
  /-- One half of a flag. -/
  | flagHalf
  | picture
  /-- The beginning of a syllable of Hangul. -/
  | lead
  | vowel
  | tail
  /-- A beginning with its vowel. -/
  | openSyllable
  /-- A beginning with vowel and tail. -/
  | closedSyllable
  | plain
deriving DecidableEq, Repr

/-- The runs of the characters that join nothing. -/
def apartRuns : List Nat := [
  0, 32, 95, 33, 13, 1, 1390, 1, 4593, 1, 2044, 1, 2, 2, 24, 7, 49, 16, 56975, 1, 240, 12,
  13364, 16, 34912, 4, 5327, 8, 798341, 32, 96, 128, 240, 3600]

/-- The runs of the marks that take a place of their own. -/
def spacingRuns : List Nat := [
  2307, 1, 55, 1, 2, 3, 8, 4, 1, 2, 50, 2, 59, 2, 6, 2, 2, 2, 54, 1, 58, 3, 66, 1, 58, 3, 8, 1,
  1, 2, 53, 2, 60, 1, 6, 2, 2, 2, 114, 1, 1, 2, 3, 3, 1, 3, 52, 3, 61, 4, 61, 2, 58, 1, 1, 2,
  1, 2, 2, 2, 1, 2, 39, 1, 14, 2, 59, 2, 5, 3, 1, 3, 53, 2, 76, 2, 6, 7, 19, 2, 63, 1, 127, 1,
  138, 2, 63, 1, 177, 1, 9, 2, 25, 2, 44, 1, 1680, 1, 30, 1, 129, 1, 7, 8, 1, 2, 346, 4, 2, 3,
  4, 2, 1, 6, 224, 2, 58, 1, 1, 1, 21, 6, 145, 1, 54, 1, 1, 5, 1, 2, 61, 1, 30, 1, 4, 2, 2, 1,
  60, 1, 2, 3, 1, 1, 3, 2, 48, 8, 8, 2, 171, 1, 21, 1, 35627, 2, 2, 1, 88, 2, 50, 16, 142, 2,
  47, 1, 48, 2, 4, 2, 2, 3, 110, 2, 2, 2, 24, 1, 157, 1, 2, 2, 5, 1, 237, 2, 1, 2, 1, 2, 1, 1,
  25619, 1, 1, 1, 127, 1, 45, 3, 4, 2, 115, 1, 24, 2, 59, 1, 48, 3, 9, 2, 13, 1, 93, 3, 3, 2,
  1, 1, 170, 3, 31, 2, 59, 1, 1, 4, 2, 2, 2, 3, 20, 2, 209, 3, 8, 2, 3, 1, 107, 2, 6, 1, 1, 2,
  1, 1, 2, 1, 238, 2, 6, 4, 2, 1, 113, 3, 8, 2, 1, 1, 109, 1, 1, 2, 6, 1, 111, 1, 261, 3, 9, 1,
  248, 5, 1, 2, 4, 1, 2, 1, 1, 1, 142, 3, 8, 4, 4, 1, 84, 1, 29, 2, 62, 1, 407, 1, 14, 1, 106,
  1, 7, 1, 2, 1, 213, 5, 4, 2, 1, 1, 350, 2, 12, 1, 48, 2, 8, 2, 1, 1, 20495, 55, 104, 2,
  24948, 1, 6, 1]

/-- The runs of the characters that join what stands behind them. -/
def frontRuns : List Nat := [
  1536, 6, 215, 1, 49, 1, 384, 2, 80, 1, 1131, 1, 66414, 1, 15, 1, 244, 2, 1915, 1, 1, 1, 248,
  1, 73, 6, 700, 1, 443, 1]

/-- The runs of the pictures. -/
def pictureRuns : List Nat := [
  169, 1, 4, 1, 8077, 1, 12, 1, 216, 1, 22, 1, 90, 6, 15, 2, 367, 2, 12, 1, 95, 1, 70, 1, 25,
  11, 4, 3, 199, 1, 231, 2, 10, 1, 9, 1, 58, 4, 1, 6, 1, 12, 1, 114, 10, 118, 2, 11, 1, 1, 1,
  1, 6, 1, 3, 1, 6, 1, 10, 2, 15, 1, 2, 1, 4, 1, 1, 1, 4, 3, 1, 1, 11, 5, 45, 3, 9, 1, 14, 1,
  14, 1, 372, 2, 463, 3, 19, 2, 51, 1, 4, 1, 1242, 1, 12, 1, 601, 1, 1, 1, 114022, 256, 13, 3,
  31, 1, 60, 6, 12, 2, 14, 1, 2, 10, 18, 57, 27, 15, 10, 1, 20, 1, 2, 9, 1, 4, 9, 434, 5, 318,
  8, 266, 48, 128, 116, 12, 85, 43, 12, 4, 56, 8, 10, 6, 40, 8, 30, 82, 12, 47, 1, 10, 1, 441,
  256, 1022]

/-- Whether the code point lies between two others. -/
def isWithin (low high : Nat) (c : Char) : Bool :=
  low ≤ c.toNat && c.toNat ≤ high

/-- How a written syllable of Hangul joins its neighbours: every 28th has no tail. -/
def syllableJoint (c : Char) : Joint :=
  if (c.toNat - 0xAC00) % 28 = 0 then .openSyllable else .closedSyllable

/-- How a character joins its neighbours. -/
def jointOf (c : Char) : Joint :=
  if c = '\u200d' then .joiner
  else if isExtending c || isWithin 0x1F3FB 0x1F3FF c || inRuns spacingRuns c then .mark
  else if inRuns apartRuns c then .apart
  else if inRuns frontRuns c then .front
  else if isWithin 0x1F1E6 0x1F1FF c then .flagHalf
  else if isWithin 0x1100 0x115F c || isWithin 0xA960 0xA97C c then .lead
  else if isWithin 0x1160 0x11A7 c || isWithin 0xD7B0 0xD7C6 c then .vowel
  else if isWithin 0x11A8 0x11FF c || isWithin 0xD7CB 0xD7FB c then .tail
  else if isWithin 0xAC00 0xD7A3 c then syllableJoint c
  else if inRuns pictureRuns c then .picture
  else .plain

/-- Whether two neighbours join, whatever stands before them. -/
def Joint.joins : Joint → Joint → Bool
  | apart, _ => false
  | _, apart => false
  | _, mark => true
  | _, joiner => true
  | front, _ => true
  | lead, lead => true
  | lead, vowel => true
  | lead, openSyllable => true
  | lead, closedSyllable => true
  | vowel, vowel => true
  | vowel, tail => true
  | openSyllable, vowel => true
  | openSyllable, tail => true
  | tail, tail => true
  | closedSyllable, tail => true
  | _, _ => false

/-- Whether a character joins the cluster before it, given how the characters of the cluster join,
the last one first. Two halves make a flag, and a picture joins one that a joiner follows. -/
def joinsCluster : List Joint → Joint → Bool
  | .flagHalf :: before, .flagHalf => (before.takeWhile (· = .flagHalf)).length % 2 = 0
  | .joiner :: before, .picture => (before.dropWhile (· = .mark)).head? = some .picture
  | last :: _, next => last.joins next
  | [], _ => true

/-- The clusters of a text, given the one before it with its characters in reverse. -/
def clustersFrom : List Char → List Char → List (List Char)
  | [], [] => []
  | before, [] => [before.reverse]
  | before, c :: s =>
    if joinsCluster (before.map jointOf) (jointOf c) then clustersFrom (c :: before) s
    else before.reverse :: clustersFrom [c] s

/-- The clusters of a line. -/
def clusters (s : List Char) : List (List Char) :=
  clustersFrom [] s

theorem flatten_clustersFrom (before s : List Char) :
    (clustersFrom before s).flatten = before.reverse ++ s := by
  induction s generalizing before with
  | nil => cases before <;> simp [clustersFrom]
  | cons c s ih =>
    simp only [clustersFrom]
    split <;> simp [ih]

/-- The cuts lose nothing. -/
theorem flatten_clusters (s : List Char) : (clusters s).flatten = s := by
  simp [clusters, flatten_clustersFrom]

/-- The clusters that are left, the last one first, after one more has been typed. -/
def typeCluster (typed : List (List Char)) (cluster : List Char) : List (List Char) :=
  if cluster = ['\x08'] then typed.drop 1 else cluster :: typed

/-- A line in which each backspace has taken back the cluster before it. -/
def takeBackChars (s : List Char) : List Char :=
  if s.contains '\x08' then ((clusters s).foldl typeCluster []).reverse.flatten else s

/-- A line in which each backspace has taken back the cluster before it. -/
def takeBack (s : String) : String :=
  String.ofList (takeBackChars s.toList)

end TreeShell.Text
