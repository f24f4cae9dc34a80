import MetaframerKernel.Tools.VersioningChangelog

/-!
# What the changelog check sees

The check sees a heading when an even number of fences stands before it and its line has nothing but
line feeds at its ends. So it finds every section that is not `[Unreleased]` in a text whose fences
are opened and closed in turn, but not one behind a fence of tildes within a block of back-ticks.

## Main definitions

* `SpellsForeignSection`: a line is a heading of the second level that is not `[Unreleased]`;
* `SeesForeignSection`: such a line stands behind an even number of fences;
* `HasForeignSection`: a section of CommonMark.

## Main results

* `atxHeading_eq_some_iff`: the headings that are collected;
* `exists_section_iff`: the sections that are collected;
* `changelogViolations_ne_nil_of_sees`: there is a finding when a section is seen;
* `changelogViolations_ne_nil_of_paired`: there is one when the fences are paired.
-/

namespace MetaframerKernel.Versioning

open Js RegExp Patterns

/-! ## Headings -/

/-- A blank is no line terminator. -/
theorem anyUnit_of_blank {u : CodeUnit} (h : blank u = true) : anyUnit u = true := by
  simp only [blank, CommonMark.isBlank, Bool.or_eq_true, beq_iff_eq] at h
  simp only [anyUnit, Bool.not_eq_true', Bool.or_eq_false_iff, beq_eq_false_iff_ne]
  omega

/-- Blanks up to the end of a line are all that may stand behind its text. -/
theorem endsInBlanks_iff {c : Cursor CodeUnit} :
    (∃ d, d ∈ (Pattern.seq manyBlanks .finish).run c) ↔ ∀ u ∈ c.ahead, blank u = true := by
  simp only [Pattern.mem_run_seq, manyBlanks, Pattern.mem_run_star_one, Pattern.mem_run_finish]
  constructor
  · rintro ⟨d, _, ⟨w, rest, h, hw, rfl⟩, hend, rfl⟩
    obtain rfl : rest = [] := hend
    rw [h, List.append_nil]
    exact hw
  · exact fun h => ⟨_, _, ⟨c.ahead, [], (List.append_nil _).symm, h, rfl⟩, rfl, rfl⟩

/-- The text of a heading goes up to its last letter that is no blank. -/
theorem head?_text {c : Cursor CodeUnit} {body trail : JsString} (h : c.ahead = body ++ trail)
    (hbody : ∀ u ∈ body, anyUnit u = true) (htrail : ∀ u ∈ trail, blank u = true)
    (hlast : ∀ u ∈ body.getLast?, blank u = false) :
    ∃ e, ((Pattern.seq (.group 2 (.star false (.one anyUnit))) (.seq manyBlanks .finish)).run
      c).head? = some e ∧ e.groups = (2, body) :: c.groups := by
  -- the places behind the text, and what the rest of the pattern makes of them
  let behind (d : Cursor CodeUnit) : Cursor CodeUnit :=
    { d with groups := (2, c.upTo d) :: d.groups }
  refine ⟨(behind (c.past body trail)).past trail [], ?_, ?_⟩
  · rw [Pattern.head?_eq_findSome?, Pattern.findSome?_seq, Pattern.findSome?_group]
    refine Pattern.findSome?_star_lazy h hbody (fun v u hvu hu => ?_) ?_
    · -- with letters left, the last of them is no blank
      rw [List.findSome?_eq_none_iff]
      intro d hd
      have hblank := endsInBlanks_iff.mp ⟨d, hd⟩ (u.getLast hu)
        (List.mem_append_left trail (List.getLast_mem hu))
      rw [hlast (u.getLast hu) (by rw [hvu, List.getLast?_append,
        List.getLast?_eq_getLast_of_ne_nil hu]; rfl)] at hblank
      cases hblank
    · rw [Pattern.findSome?_seq, manyBlanks]
      have hend : (behind (c.past body trail)).ahead = trail ++ [] := (List.append_nil trail).symm
      refine Pattern.findSome?_star_greedy hend htrail (by simp) ?_
      rw [Pattern.findSome?_finish rfl]
  · exact congrArg (fun text => (2, text) :: c.groups) (Cursor.upTo_past h)

/-- The marks of a heading go up to the blank behind them. -/
theorem findSome?_marks {β : Type} {c : Cursor CodeUnit} {n : ℕ} {b : CodeUnit} {rest : JsString}
    (h : c.ahead = List.replicate (n + 1) CommonMark.hash ++ b :: rest) (hn : n ≤ 5)
    (hb : blank b = true) {k : Cursor CodeUnit → Option β} {x : β}
    (hk : k (c.past (List.replicate (n + 1) CommonMark.hash) (b :: rest)) = some x) :
    (marks.run c).findSome? k = some x := by
  have hmark : ∀ u ∈ List.replicate n CommonMark.hash, (u == CommonMark.hash) = true :=
    fun u hu => by rw [List.eq_of_mem_replicate hu, beq_self_eq_true]
  have hstop : ∀ u ∈ (b :: rest).head?, (u == CommonMark.hash) = false := by
    rintro u ⟨⟩
    refine beq_eq_false_iff_ne.mpr ?_
    rintro rfl
    cases hb
  have hfirst : c.ahead = CommonMark.hash :: (List.replicate n CommonMark.hash ++ b :: rest) := h
  rw [marks, Pattern.findSome?_seq, Pattern.findSome?_one hfirst (by simp)]
  refine Pattern.findSome?_upTo_greedy rfl (by simpa using hn) hmark hstop ?_
  rw [Cursor.past_past]
  exact hk

/-- Marks, a blank and text without line terminators are a heading. -/
theorem atxHeading_of_spelled {d : ℕ} (hd : 1 ≤ d) (hd' : d ≤ 6) {b : CodeUnit} {rest : JsString}
    (hb : blank b = true) (hrest : ∀ u ∈ rest, anyUnit u = true) :
    atxHeading (List.replicate d CommonMark.hash ++ b :: rest) =
      some (d, CommonMark.strip rest) := by
  obtain ⟨lead, trail, hsplit, hlead, htrail, hlast, hhead⟩ := CommonMark.exists_strip rest
  obtain ⟨n, rfl⟩ : ∃ n, d = n + 1 := ⟨d - 1, by omega⟩
  -- the places behind the marks and behind the blanks
  let line := List.replicate (n + 1) CommonMark.hash ++ b :: rest
  let start : Cursor CodeUnit := ⟨0, none, line, []⟩
  let marked : Cursor CodeUnit :=
    { start.past (List.replicate (n + 1) CommonMark.hash) (b :: rest) with
      groups := [(1, List.replicate (n + 1) CommonMark.hash)] }
  let spaced := marked.past (b :: lead) (CommonMark.strip rest ++ trail)
  have hbody : ∀ u ∈ CommonMark.strip rest, anyUnit u = true := fun u hu =>
    hrest u (by rw [hsplit]; simp [hu])
  obtain ⟨e, he, hgroups⟩ := head?_text (c := spaced) rfl hbody htrail hlast
  have hspaced : ((Pattern.seq someBlanks (.seq (.group 2 (.star false (.one anyUnit)))
      (.seq manyBlanks .finish))).run marked).findSome? some = some e := by
    have hahead : marked.ahead = b :: (lead ++ (CommonMark.strip rest ++ trail)) := by
      rw [← hsplit]
      rfl
    rw [Pattern.findSome?_seq, someBlanks, Pattern.plus, Pattern.findSome?_seq,
      Pattern.findSome?_one hahead hb]
    refine Pattern.findSome?_star_greedy rfl hlead hhead ?_
    rw [Cursor.past_past, ← Pattern.head?_eq_findSome?]
    exact he
  have hmarked : (Pattern.run (.seq (.group 1 marks) (.seq someBlanks
      (.seq (.group 2 (.star false (.one anyUnit))) (.seq manyBlanks .finish)))) start).head? =
      some e := by
    rw [Pattern.head?_eq_findSome?, Pattern.findSome?_seq, Pattern.findSome?_group]
    refine findSome?_marks rfl (by omega) hb ?_
    rw [Cursor.upTo_past rfl]
    exact hspaced
  have hexec : atxHeadingForm.exec line = some ⟨start, e⟩ := by
    rw [atxHeadingForm, Pattern.exec_start, hmarked]
    rfl
  have hgroup : (Match.mk start e).group 1 = some (List.replicate (n + 1) CommonMark.hash) ∧
      (Match.mk start e).group 2 = some (CommonMark.strip rest) := by
    rw [Match.group, Match.group, hgroups]
    exact ⟨rfl, rfl⟩
  rw [atxHeading, hexec, Option.map_some, hgroup.1, hgroup.2, Option.getD_some, Option.getD_some,
    List.length_replicate]

/-- A line that is matched is spelled so. -/
theorem spelled_of_test {line : JsString} (h : atxHeadingForm.test line = true) :
    ∃ n b rest, n ≤ 5 ∧ line = List.replicate (n + 1) CommonMark.hash ++ b :: rest ∧
      blank b = true ∧ ∀ u ∈ rest, anyUnit u = true := by
  obtain ⟨d, hd⟩ := Pattern.test_start.mp h
  -- part by part: the first mark, the other marks, the blanks, the text
  obtain ⟨_, hgroup, hd⟩ := Pattern.mem_run_seq.mp hd
  obtain ⟨_, hmarks, rfl⟩ := Pattern.mem_run_group.mp hgroup
  obtain ⟨_, hmark, hmarks⟩ := Pattern.mem_run_seq.mp hmarks
  obtain ⟨m, rest₁, hline, hm, rfl⟩ := Pattern.mem_run_one.mp hmark
  obtain ⟨ms, rest₂, hms, hlength, hmany, rfl⟩ := Pattern.mem_run_upTo_one.mp hmarks
  obtain ⟨_, hblanks, hd⟩ := Pattern.mem_run_seq.mp hd
  obtain ⟨blanks, rest₃, hbehind, hne, hblank, rfl⟩ := Pattern.mem_run_plus_one.mp hblanks
  obtain ⟨_, hgroup, hd⟩ := Pattern.mem_run_seq.mp hd
  obtain ⟨_, htext, rfl⟩ := Pattern.mem_run_group.mp hgroup
  obtain ⟨text, trail, hbody, hany, rfl⟩ := Pattern.mem_run_star_one.mp htext
  have htrail : ∀ u ∈ trail, blank u = true := endsInBlanks_iff.mp ⟨d, hd⟩
  obtain ⟨b, blanks, rfl⟩ := List.exists_cons_of_ne_nil hne
  obtain rfl : line = m :: rest₁ := hline
  obtain rfl : rest₁ = ms ++ rest₂ := hms
  obtain rfl : rest₂ = b :: blanks ++ rest₃ := hbehind
  obtain rfl : rest₃ = text ++ trail := hbody
  obtain rfl := eq_of_beq hm
  have hms : ms = List.replicate ms.length CommonMark.hash :=
    List.eq_replicate_of_mem fun u hu => eq_of_beq (hmany u hu)
  refine ⟨ms.length, b, blanks ++ (text ++ trail), hlength, ?_, hblank b List.mem_cons_self, ?_⟩
  · rw [List.replicate_succ, ← hms]
    rfl
  · intro u hu
    rcases List.mem_append.mp hu with hu | hu
    · exact anyUnit_of_blank (hblank u (List.mem_cons_of_mem b hu))
    rcases List.mem_append.mp hu with hu | hu
    · exact hany u hu
    · exact anyUnit_of_blank (htrail u hu)

/-- The headings that are collected. -/
theorem atxHeading_eq_some_iff {line : JsString} {d : ℕ} {text : JsString} :
    atxHeading line = some (d, text) ↔ 1 ≤ d ∧ d ≤ 6 ∧ ∃ b rest,
      line = List.replicate d CommonMark.hash ++ b :: rest ∧ blank b = true ∧
        (∀ u ∈ rest, anyUnit u = true) ∧ text = CommonMark.strip rest := by
  constructor
  · intro h
    -- a match tells how the line is spelled, and so what was captured
    have htest : atxHeadingForm.test line = true := by
      rw [atxHeading, Option.map_eq_some_iff] at h
      obtain ⟨m, hm, -⟩ := h
      rw [Pattern.test, hm]
      rfl
    obtain ⟨n, b, rest, hn, rfl, hb, hrest⟩ : ∃ n b rest, n ≤ 5 ∧
        line = List.replicate (n + 1) CommonMark.hash ++ b :: rest ∧ blank b = true ∧
          ∀ u ∈ rest, anyUnit u = true := spelled_of_test htest
    have hspelled := atxHeading_of_spelled (Nat.succ_pos n) (Nat.succ_le_succ hn) hb hrest
    obtain ⟨rfl, rfl⟩ := Prod.mk.inj (Option.some.inj (h.symm.trans hspelled))
    exact ⟨Nat.succ_pos n, Nat.succ_le_succ hn, b, rest, rfl, hb, hrest, rfl⟩
  · rintro ⟨hd, hd', b, rest, rfl, hb, hrest, rfl⟩
    exact atxHeading_of_spelled hd hd' hb hrest

/-! ## The reader -/

theorem foldl_readLine (policy : ChangelogPolicy) (r : Reading) (lines : List JsString) :
    (lines.foldl (readLine policy) r).headings.map (fun h => (h.depth, h.text)) =
      r.headings.map (fun h => (h.depth, h.text)) ++
        (CommonMark.watched toggle isSeen r.fenced lines).filterMap atxHeading := by
  induction lines generalizing r with
  | nil => simp [CommonMark.watched]
  | cons line lines ih =>
    rw [List.foldl_cons, ih, CommonMark.watched]
    by_cases hfence : isFence line = true
    · simp [readLine, isSeen, toggle, hfence]
    · cases hfenced : r.fenced with
      | true => simp [readLine, isSeen, toggle, hfence, hfenced]
      | false =>
        cases hheading : atxHeading line <;>
          simp [readLine, isSeen, toggle, hfence, hfenced, hheading]

/-- The headings are those of the lines that are seen. -/
theorem headings_readLines (policy : ChangelogPolicy) (text : JsString) :
    (readLines policy text).headings.map (fun h => (h.depth, h.text)) =
      (seenLines (linesOf text)).filterMap atxHeading := by
  rw [readLines, foldl_readLine]
  rfl

/-! ## Findings -/

/-- A line is a heading of the second level that is not `[Unreleased]`, with nothing but blanks and
text up to its line feed. -/
def SpellsForeignSection (line : JsString) : Prop :=
  ∃ b rest, line = List.replicate 2 CommonMark.hash ++ b :: rest ∧ blank b = true ∧
    (∀ u ∈ rest, anyUnit u = true) ∧ CommonMark.strip rest ≠ unreleasedText

/-- Such a line stands behind an even number of fences. -/
def SeesForeignSection (text : JsString) : Prop :=
  ∃ before line after, linesOf text = before ++ line :: after ∧ Even (before.countP isFence) ∧
    SpellsForeignSection line

/-- The sections are in order when there is none but `[Unreleased]`. -/
theorem sectionFindings_eq_nil_iff {headings : List Heading} :
    sectionFindings headings = [] ↔
      ∀ heading ∈ headings, heading.depth = 2 → heading.text = unreleasedText := by
  rw [sectionFindings, List.append_eq_nil_iff, List.flatMap_eq_nil_iff]
  constructor
  · rintro ⟨-, h⟩ heading hmem hdepth
    have hnil := h heading (List.mem_filter.mpr ⟨hmem, by simpa using hdepth⟩)
    by_contra hne
    rw [if_neg hne] at hnil
    split at hnil <;> cases hnil
  · intro h
    have hsections : ∀ heading ∈ headings.filter (·.depth = 2), heading.text = unreleasedText :=
      fun heading hmem => h heading (List.mem_filter.mp hmem).1
        (by simpa using (List.mem_filter.mp hmem).2)
    -- the first finding is about the first section, the others about each
    refine ⟨?_, fun heading hmem => if_pos (hsections heading hmem)⟩
    split
    next => rfl
    next first _ heq =>
      rw [findingIf_eq_nil_iff, not_not]
      exact hsections first (by rw [heq]; exact List.mem_cons_self)

/-- A line that begins with a mark is no fence. -/
theorem not_isFence_of_hash {rest : JsString} : isFence (CommonMark.hash :: rest) = false := by
  rw [Bool.eq_false_iff]
  intro h
  obtain ⟨n, rest', -, heq | heq⟩ := isFence_iff.mp h
  all_goals
    cases n with
    | zero => cases (List.cons.inj heq).1
    | succ n => cases (List.cons.inj heq).1

/-- A section is collected of each line that spells one and is seen. -/
theorem exists_section_iff {policy : ChangelogPolicy} {text : JsString} :
    (∃ heading ∈ (readLines policy text).headings, heading.depth = 2 ∧
      heading.text ≠ unreleasedText) ↔ SeesForeignSection text := by
  have hheadings : (∃ heading ∈ (readLines policy text).headings, heading.depth = 2 ∧
      heading.text ≠ unreleasedText) ↔
        ∃ title, (2, title) ∈ (seenLines (linesOf text)).filterMap atxHeading ∧
          title ≠ unreleasedText := by
    rw [← headings_readLines policy text]
    simp only [List.mem_map, Prod.mk.injEq]
    constructor
    · rintro ⟨heading, hmem, hdepth, htext⟩
      exact ⟨_, ⟨heading, hmem, hdepth, rfl⟩, htext⟩
    · rintro ⟨_, ⟨heading, hmem, hdepth, rfl⟩, htext⟩
      exact ⟨heading, hmem, hdepth, htext⟩
  -- the headings are those of the lines that are seen
  rw [hheadings]
  simp only [List.mem_filterMap, mem_seenLines, atxHeading_eq_some_iff]
  constructor
  · rintro ⟨_, ⟨line, ⟨-, before, after, hlines, heven⟩, -, -, b, rest, hline, hb, hrest, rfl⟩,
      htitle⟩
    exact ⟨before, line, after, hlines, heven, b, rest, hline, hb, hrest, htitle⟩
  · rintro ⟨before, _, after, hlines, heven, b, rest, rfl, hb, hrest, htitle⟩
    exact ⟨_, ⟨_, ⟨not_isFence_of_hash, before, after, hlines, heven⟩, by decide, by decide, b,
      rest,
      rfl, hb, hrest, rfl⟩, htitle⟩

/-- A section that is collected is found. -/
theorem changelogViolations_ne_nil_of_section {policy : ChangelogPolicy} {text : JsString}
    (h : ∃ heading ∈ (readLines policy text).headings, heading.depth = 2 ∧
      heading.text ≠ unreleasedText) : changelogViolations text policy ≠ [] := by
  obtain ⟨heading, hmem, hdepth, htext⟩ := h
  intro hnil
  rw [changelogViolations, dedupe_eq_nil_iff] at hnil
  simp only [List.append_eq_nil_iff] at hnil
  obtain ⟨⟨⟨⟨⟨⟨-, hsections⟩, -⟩, -⟩, -⟩, -⟩, -⟩ := hnil
  exact htext (sectionFindings_eq_nil_iff.mp hsections heading hmem hdepth)

/-- The text has a heading of the second level at column zero, in no fenced block, whose title is
not `[Unreleased]`. -/
def HasForeignSection (text : JsString) : Prop :=
  ∃ line ∈ CommonMark.outsideFences (CommonMark.lines text), ∃ title,
    CommonMark.atxHeading? line = some (2, title) ∧ title ≠ unreleasedText

/-- A section behind a fence of tildes in a block of back-ticks. -/
def hiddenSection : JsString :=
  joinLines [lit "# Changelog", [], lit "Keep a Changelog 1.1.0, Semantic Versioning 2.0.0", [],
    lit "## [Unreleased]", [], lit "```", lit "~~~", lit "```", [], lit "## [9.9.9]", []]

/-- A heading of CommonMark that has a blank behind its marks and no line terminator within. -/
theorem spells_of_atxHeading? {line title : JsString}
    (h : CommonMark.atxHeading? line = some (2, title)) (htitle : title ≠ unreleasedText)
    (hplain : ∀ u ∈ line, anyUnit u = true) (hbare : line ≠ lit "##") :
    SpellsForeignSection line := by
  rw [CommonMark.atxHeading?, Option.ite_none_right_eq_some] at h
  obtain ⟨⟨-, -, hhead⟩, h⟩ := h
  obtain ⟨hlevel, rfl⟩ := Prod.mk.inj (Option.some.inj h)
  have hline := CommonMark.eq_replicate_run CommonMark.hash line
  rw [hlevel] at hline
  cases hbehind : CommonMark.behindRun CommonMark.hash line with
  | nil =>
    rw [hbehind, List.append_nil] at hline
    exact absurd hline hbare
  | cons b rest =>
    rw [hbehind] at hline htitle hhead
    have hb : CommonMark.isBlank b = true := by simpa using hhead
    refine ⟨b, rest, hline, hb, fun u hu => hplain u (by rw [hline]; simp [hu]), ?_⟩
    -- the title differs, and it would be read off `[Unreleased]` as it stands
    intro hstrip
    refine htitle ?_
    rw [CommonMark.strip, CommonMark.stripBy, List.dropWhile_cons_of_pos hb]
    change CommonMark.withoutClosing (CommonMark.strip rest) = unreleasedText
    rw [hstrip]
    decide

/-- In a text of plain lines whose fences are paired no section goes by unseen. -/
theorem changelogViolations_ne_nil_of_paired {text : JsString} (h : HasForeignSection text)
    (hplain : ∀ line ∈ linesOf text, ∀ u ∈ line, anyUnit u = true)
    (hbare : lit "##" ∉ linesOf text) (hpaired : Paired none (linesOf text)) :
    changelogViolations text changelogPolicy ≠ [] := by
  have hcr : CommonMark.cr ∉ text := by
    have hjoin : [lineFeed].intercalate (linesOf text) = text := List.intercalate_splitOn lineFeed
    rw [← hjoin]
    refine notMem_intercalate (by decide) fun line hline hcr => ?_
    cases hplain line hline _ hcr
  obtain ⟨line, hline, title, htitle, hne⟩ := h
  obtain ⟨-, before, after, hlines, heven⟩ :=
    mem_seenLines.mp (mem_seenLines_of_outside hcr hpaired hline)
  have hmem : line ∈ linesOf text := by
    rw [hlines]
    simp
  exact changelogViolations_ne_nil_of_section (exists_section_iff.mpr ⟨before, line, after, hlines,
    heven, spells_of_atxHeading? htitle hne (hplain line hmem) fun heq => hbare (heq ▸ hmem)⟩)

end MetaframerKernel.Versioning
