import TreeShell.Command.Line
import TreeShell.Proofs.Text.Words

/-!
# The grammar of command lines

A line is read in two cuts, at its first `>` and at the bars before that, and then in words. What
comes out is well formed, and every well-formed line is read back from the way it is written.

* `segmentsOf_append`: at a bar a pipeline falls into two.
* `parse_plain`, `parse_redirect`, `parse_blank`: the three kinds of lines.
* `parse_render`: **a well-formed line is read back.** `parse_wellFormed`: no other is ever read.
* `parse_grammar`: both, and which lines are refused.
-/

namespace TreeShell.Command

open Text

/-- A word that can stand in a pipeline. -/
@[mk_iff]
structure WordOK (w : String) : Prop where
  nonempty : w ≠ ""
  solid : ∀ c ∈ w.toList, isBlank c = false
  bar : '|' ∉ w.toList
  redirection : '>' ∉ w.toList

/-- A line as it can be read: there is a segment, every word is sound, and the target, if there is
one, neither is empty nor has a blank at its ends. -/
@[mk_iff]
structure CommandLine.WellFormed (l : CommandLine) : Prop where
  segments : l.segments ≠ []
  words : ∀ segment ∈ l.segments, ∀ g ∈ segment, ∀ w ∈ g.name :: g.args, WordOK w
  target : ∀ t ∈ l.redirect, t ≠ "" ∧ Trimmed t.toList

instance (w : String) : Decidable (WordOK w) :=
  decidable_of_iff (w ≠ "" ∧ w.toList.all (!isBlank ·) = true ∧ '|' ∉ w.toList ∧ '>' ∉ w.toList) <| by
    simp [wordOK_iff]

instance (l : CommandLine) : Decidable l.WellFormed :=
  decidable_of_iff' _ (CommandLine.wellFormed_iff l)

/-- The characters of a chunk. -/
def chunkChars : Option Segment → List Char
  | none => []
  | some g => [' '].intercalate ((g.name :: g.args).map String.toList)

/-- The characters of a pipeline. -/
def pipelineChars (segments : List (Option Segment)) : List Char :=
  [' ', '|', ' '].intercalate (segments.map chunkChars)

/-- The words of a chunk are sound. -/
def ChunkOK (segment : Option Segment) : Prop := ∀ g ∈ segment, ∀ w ∈ g.name :: g.args, WordOK w

variable {segment : Option Segment} {segments : List (Option Segment)} {lead trail : List Char}
  {line front back : String} {l : CommandLine}

/-! ## Writing -/

theorem toList_chunk (segment : Option Segment) :
    ((segment.map Segment.render).getD "").toList = chunkChars segment := by
  cases segment with
  | none => rfl
  | some g =>
    have hrender : g.render.toList = chunkChars (some g) := String.toList_intercalate
    exact hrender

theorem toList_pipeline (segments : List (Option Segment)) :
    (" | ".intercalate (segments.map fun s => (s.map Segment.render).getD "")).toList =
      pipelineChars segments := by
  rw [String.toList_intercalate, List.map_map]
  have hmap : String.toList ∘ (fun s : Option Segment => (s.map Segment.render).getD "") =
      chunkChars := funext toList_chunk
  rw [hmap]
  rfl

/-- A character of a chunk is the space, or one of a word. -/
theorem notMem_chunkChars (hs : ChunkOK segment) {d : Char} (hspace : d ≠ ' ')
    (hd : ∀ w, WordOK w → d ∉ w.toList) : d ∉ chunkChars segment := by
  intro hm
  cases segment with
  | none => exact absurd hm List.not_mem_nil
  | some g =>
    rcases mem_of_mem_intercalate hm with hm | ⟨s, hword, hm⟩
    · exact hspace (List.mem_singleton.1 hm)
    · obtain ⟨w, hw, rfl⟩ := List.mem_map.1 hword
      exact hd w (hs g rfl w hw) hm

theorem redirection_notMem_pipelineChars (hs : ∀ segment ∈ segments, ChunkOK segment) :
    '>' ∉ pipelineChars segments := by
  intro hm
  rcases mem_of_mem_intercalate hm with hm | ⟨s, hchunk, hm⟩
  · exact absurd hm (by decide)
  · obtain ⟨segment, hmem, rfl⟩ := List.mem_map.1 hchunk
    exact notMem_chunkChars (hs segment hmem) (by decide) (fun w hw => hw.redirection) hm

/-! ## Reading a pipeline -/

/-- **At a bar a pipeline falls into two.** -/
theorem segmentsOf_append (s t : List Char) : CommandLine.segmentsOf (s ++ '|' :: t) =
    CommandLine.segmentsOf s ++ CommandLine.segmentsOf t := by
  unfold CommandLine.segmentsOf List.splitOn
  rw [List.splitOnP_append_cons s t (by simp), List.map_append]

theorem segmentsOf_chunk {s : List Char} (h : '|' ∉ s) :
    CommandLine.segmentsOf s = [Segment.ofChars? s] := by
  unfold CommandLine.segmentsOf
  rw [List.splitOn_eq_singleton h, List.map_singleton]

/-- A chunk is read back between blanks. -/
theorem ofChars?_chunk (hs : ChunkOK segment) (hl : Blanks lead) (ht : Blanks trail) :
    Segment.ofChars? (lead ++ chunkChars segment ++ trail) = segment := by
  unfold Segment.ofChars?
  rw [wordsOf_between hl ht]
  cases segment with
  | none => rfl
  | some g =>
    have hwords : ∀ w ∈ (g.name :: g.args).map String.toList,
        w ≠ [] ∧ ∀ c ∈ w, isBlank c = false := by
      intro s hword
      obtain ⟨w, hw, rfl⟩ := List.mem_map.1 hword
      have hok := hs g rfl w hw
      exact ⟨fun h => hok.nonempty (String.toList_eq_nil_iff.1 h), hok.solid⟩
    unfold chunkChars
    rw [wordsOf_spaced hwords, List.map_map]
    simp

theorem bar_notMem_blanks {s : List Char} (hs : Blanks s) : '|' ∉ s := by
  intro hm
  exact absurd (hs _ hm) (by decide)

/-- **A pipeline is read back between blanks.** By induction on its segments: the first of them ends
at the first bar. -/
theorem segmentsOf_pipelineChars (hne : segments ≠ []) (hs : ∀ segment ∈ segments, ChunkOK segment)
    (hl : Blanks lead) (ht : Blanks trail) :
    CommandLine.segmentsOf (lead ++ pipelineChars segments ++ trail) = segments := by
  have hchunk : ∀ {segment lead trail}, ChunkOK segment → Blanks lead → Blanks trail →
      CommandLine.segmentsOf (lead ++ chunkChars segment ++ trail) = [segment] := by
    intro segment lead trail hs hl ht
    have hbar : '|' ∉ lead ++ chunkChars segment ++ trail := by
      simp only [List.mem_append, not_or]
      exact ⟨⟨bar_notMem_blanks hl, notMem_chunkChars hs (by decide) fun w hw => hw.bar⟩,
        bar_notMem_blanks ht⟩
    rw [segmentsOf_chunk hbar, ofChars?_chunk hs hl ht]
  induction segments generalizing lead with
  | nil => exact absurd rfl hne
  | cons segment segments ih =>
    obtain ⟨hfirst, hs⟩ := List.forall_mem_cons.1 hs
    cases segments with
    | nil =>
      have hone : pipelineChars [segment] = chunkChars segment := List.intercalate_singleton
      rw [hone, hchunk hfirst hl ht]
    | cons next segments =>
      have hcut : lead ++ pipelineChars (segment :: next :: segments) ++ trail =
          lead ++ chunkChars segment ++ [' '] ++
            '|' :: ([' '] ++ pipelineChars (next :: segments) ++ trail) := by
        unfold pipelineChars
        rw [List.map_cons, List.map_cons, List.intercalate_cons_cons]
        simp
      rw [hcut, segmentsOf_append, hchunk hfirst hl blanks_space,
        ih (List.cons_ne_nil _ _) hs blanks_space, List.singleton_append]

theorem segmentsOf_ne_nil (s : List Char) : CommandLine.segmentsOf s ≠ [] := by
  unfold CommandLine.segmentsOf
  rw [ne_eq, List.map_eq_nil_iff]
  exact List.splitOn_ne_nil '|' s

/-- What is read of a pipeline are sound words. -/
theorem chunkOK_of_mem_segmentsOf {s : List Char} (hs : '>' ∉ s)
    (h : segment ∈ CommandLine.segmentsOf s) : ChunkOK segment := by
  obtain ⟨chunk, hchunk, rfl⟩ := List.mem_map.1 h
  intro g hg w hword
  have hwords : (wordsOf chunk).map String.ofList = g.name :: g.args := by
    unfold Segment.ofChars? at hg
    split at hg
    · cases hg
    · rename_i name args hwords
      obtain rfl := Option.some.inj hg
      exact hwords
  rw [← hwords] at hword
  obtain ⟨s', hw, rfl⟩ := List.mem_map.1 hword
  obtain ⟨hne, hsolid, hchars⟩ := solid_of_mem_wordsOf hw
  refine ⟨by simpa using hne, ?_, ?_, ?_⟩
  · rwa [String.toList_ofList]
  · rw [String.toList_ofList]
    exact fun hbar => notMem_of_mem_splitOn hchunk (hchars _ hbar)
  · rw [String.toList_ofList]
    exact fun hredirection => hs (mem_of_mem_splitOn hchunk (hchars _ hredirection))

namespace CommandLine

/-! ## Reading a line -/

/-- **A line without a `>`** is a pipeline. -/
theorem parse_plain (h : '>' ∉ line.toList) :
    parse line = .ok { redirect := none, segments := segmentsOf line.toList } := by
  unfold parse
  rw [List.dropWhile_eq_nil_iff.2 (passes h)]

theorem toList_cut (front back : String) :
    (front ++ ">" ++ back).toList = front.toList ++ '>' :: back.toList := by simp

theorem dropWhile_cut (h : '>' ∉ front.toList) (back : String) :
    (front ++ ">" ++ back).toList.dropWhile (· ≠ '>') = '>' :: back.toList := by
  rw [toList_cut, List.dropWhile_append_of_pos (passes h)]
  rfl

/-- **A line with something behind its first `>`** is what stands before it, redirected. -/
theorem parse_redirect (h : '>' ∉ front.toList) (hback : trim back ≠ "") :
    parse (front ++ ">" ++ back) =
      .ok { redirect := some (trim back), segments := segmentsOf front.toList } := by
  have htake : (front ++ ">" ++ back).toList.takeWhile (· ≠ '>') = front.toList := by
    rw [toList_cut, takeWhile_cut h]
  unfold parse
  rw [dropWhile_cut h, htake]
  simp only
  split
  · rename_i hnil
    exact absurd (trim_eq_empty.2 (blanks_iff_allBlank.1 (trimChars_eq_nil.1 hnil))) hback
  · rfl

/-- **A line with nothing but blanks behind its first `>`** is refused. -/
theorem parse_blank (h : '>' ∉ front.toList) (hback : allBlank back = true) :
    parse (front ++ ">" ++ back) = .error .noTarget := by
  unfold parse
  rw [dropWhile_cut h]
  simp only [trimChars_eq_nil.2 (blanks_iff_allBlank.2 hback)]

/-! ## Both ways -/

/-- **A well-formed line is read back.** -/
theorem parse_render (h : l.WellFormed) : parse l.render = .ok l := by
  obtain ⟨redirect, segments⟩ := l
  have hpipeline := toList_pipeline segments
  generalize htext : " | ".intercalate (segments.map fun s => (s.map Segment.render).getD "") = text
    at hpipeline
  have hplain : '>' ∉ text.toList := by
    rw [hpipeline]
    exact redirection_notMem_pipelineChars h.words
  cases redirect with
  | none =>
    have hrender : render ⟨none, segments⟩ = text := htext
    have hsegments := segmentsOf_pipelineChars h.segments h.words blanks_nil blanks_nil
    rw [List.nil_append, List.append_nil] at hsegments
    rw [hrender, parse_plain hplain, hpipeline, hsegments]
  | some target =>
    obtain ⟨hne, htrimmed⟩ := h.target target rfl
    have hrender : render ⟨some target, segments⟩ = (text ++ " ") ++ ">" ++ (" " ++ target) := by
      unfold render
      rw [htext]
      apply String.toList_injective
      simp
    have hfront : '>' ∉ (text ++ " ").toList := by
      rw [String.toList_append, List.mem_append, not_or]
      exact ⟨hplain, by decide⟩
    have htrim : trim (" " ++ target) = target := by
      unfold trim
      rw [String.toList_append]
      exact (congrArg String.ofList (htrimmed.trimChars_eq blanks_space)).trans String.ofList_toList
    have hsegments := segmentsOf_pipelineChars h.segments h.words blanks_nil blanks_space
    rw [List.nil_append] at hsegments
    have hspace : " ".toList = [' '] := rfl
    rw [hrender, parse_redirect hfront (by rwa [htrim]), htrim, String.toList_append, hpipeline, hspace,
      hsegments]

/-- **What is read is well formed.** -/
theorem parse_wellFormed (h : parse line = .ok l) : l.WellFormed := by
  by_cases hmem : '>' ∈ line.toList
  · obtain ⟨front, back, hfront, rfl⟩ := exists_cut ">" rfl hmem
    by_cases hback : trim back = ""
    · rw [parse_blank hfront (trim_eq_empty.1 hback)] at h
      cases h
    · rw [parse_redirect hfront hback] at h
      obtain rfl := Except.ok.inj h
      refine ⟨segmentsOf_ne_nil _, fun segment => chunkOK_of_mem_segmentsOf hfront, fun t ht => ?_⟩
      obtain rfl := Option.some.inj ht
      refine ⟨hback, ?_⟩
      rw [trim, String.toList_ofList]
      exact trimChars_trimmed _
  · rw [parse_plain hmem] at h
    obtain rfl := Except.ok.inj h
    exact ⟨segmentsOf_ne_nil _, fun segment => chunkOK_of_mem_segmentsOf hmem, fun t ht => by cases ht⟩

/-- **Which lines are refused**: those with nothing but blanks behind their first `>`. -/
theorem parse_error_iff : (∃ f, parse line = .error f) ↔
    ∃ front back : String, '>' ∉ front.toList ∧ line = front ++ ">" ++ back ∧
      allBlank back = true := by
  constructor
  · rintro ⟨f, hf⟩
    by_cases hmem : '>' ∈ line.toList
    · obtain ⟨front, back, hfront, rfl⟩ := exists_cut ">" rfl hmem
      refine ⟨front, back, hfront, rfl, trim_eq_empty.1 ?_⟩
      by_contra hback
      rw [parse_redirect hfront hback] at hf
      cases hf
    · rw [parse_plain hmem] at hf
      cases hf
  · rintro ⟨front, back, hfront, rfl, hback⟩
    exact ⟨_, parse_blank hfront hback⟩

/-- **The grammar of command lines.** A line is well formed exactly if it can be read, and then it is
read from the way it is written. A text is refused exactly if there is a `>` in it and nothing but
blanks behind the first. -/
theorem parse_grammar :
    (∀ l : CommandLine, l.WellFormed → parse l.render = .ok l) ∧
    (∀ (line : String) (l : CommandLine), parse line = .ok l →
      l.WellFormed ∧ parse l.render = parse line) ∧
    ∀ line : String, (∃ f, parse line = .error f) ↔
      ∃ front back : String, '>' ∉ front.toList ∧ line = front ++ ">" ++ back ∧
        allBlank back = true := by
  refine ⟨fun l => parse_render, fun line l h => ?_, fun line => parse_error_iff⟩
  have hl := parse_wellFormed h
  exact ⟨hl, by rw [parse_render hl, h]⟩

/-- A line with a chunk without a word, and with a bar and another `>` in its target. -/
def crowded : CommandLine where
  redirect := some "b > c|d"
  segments := [some ⟨"echo", ["a", "<"]⟩, none, some ⟨"grep", ["\\"]⟩]

/-- It is read from the way it is written, and from any other spelling. -/
theorem parse_grammar_crowded :
    crowded.WellFormed ∧ crowded.render = "echo a < |  | grep \\ > b > c|d" ∧
      parse crowded.render = .ok crowded ∧
      parse "\techo  a\u00a0<|| grep \\>b > c|d\u3000" = .ok crowded ∧
      ∃ f, parse "echo a < | > \u3000" = .error f := by
  obtain ⟨hrender, hparse, herror⟩ := parse_grammar
  have hother : parse "\techo  a\u00a0<|| grep \\>b > c|d\u3000" = .ok crowded := by rfl
  refine ⟨(hparse _ _ hother).1, by decide, hrender crowded (by decide), hother, ?_⟩
  exact (herror _).2 ⟨"echo a < | ", " \u3000", by decide, by decide, by decide⟩

end CommandLine

end TreeShell.Command
