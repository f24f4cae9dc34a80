import MetaframerKernel.Domain.Identity
import MetaframerKernel.Js.RegExp
import MetaframerKernel.Markdown.CommonMark

/-!
# Patterns over the texts of the repository

The classes of letters the checks of `CHANGELOG.md` and `README.md` are spelled with, their shared
pattern of a fence, and lines.

## Main definitions

* `blank`, `space`, `wordUnit`, `anyUnit`: classes of letters;
* `literal`, `literalI`: a word, and a word in either case;
* `fence`: the pattern of a line that opens or closes a fenced block, as the checks read it.

## Main results

* `isFence_iff`: the lines the pattern matches;
* `mem_seenLines`: what a reader sees whom each fence turns aside or back;
* `mem_seenLines_of_outside`: with the fences paired he sees what is in no fenced block.
-/

namespace MetaframerKernel.Patterns

open Js RegExp

/-- A line feed. -/
def lineFeed : CodeUnit := 0x0A

/-- A space. -/
def spaceUnit : CodeUnit := 0x20

/-- `[ \t]` -/
def blank (u : CodeUnit) : Bool := CommonMark.isBlank u

/-- `\s` -/
def space (u : CodeUnit) : Bool := isTrimmed u

/-- `\S` -/
def nonSpace (u : CodeUnit) : Bool := !space u

/-- `\w` -/
def wordUnit (u : CodeUnit) : Bool :=
  u.inRange '0' '9' || u.inRange 'A' 'Z' || u.inRange 'a' 'z' || u.isChar '_'

/-- `.` -/
def anyUnit (u : CodeUnit) : Bool :=
  !(u.val == 0x0A || u.val == 0x0D || u.val == 0x2028 || u.val == 0x2029)

/-- `[cs]` -/
def oneOf (cs : String) : Pattern CodeUnit := .one (CodeUnit.oneOf cs)

/-- `[^cs]` -/
def noneOf (cs : String) : Pattern CodeUnit := .one fun u => !u.oneOf cs

/-- `\d` -/
def digit : Pattern CodeUnit := .one digitClass

/-- A word. -/
def literal (w : String) : Pattern CodeUnit := .word (lit w)

/-- A letter in either case. -/
def sameLetter (c : Char) (u : CodeUnit) : Bool := u.isChar c.toLower || u.isChar c.toUpper

/-- A word under the flag `i`. -/
def literalI (w : String) : Pattern CodeUnit := .all (w.toList.map fun c => .one (sameLetter c))

/-- `\b` -/
def wordBoundary : Pattern CodeUnit := .boundary wordUnit

/-- `text.includes(token)` -/
def includes (text token : JsString) : Bool := text.tails.any fun rest => token.isPrefixOf rest

/-- `text.split("\n")` -/
def linesOf (text : JsString) : List JsString := text.splitOn lineFeed

/-- `lines.join("\n")` -/
def joinLines (lines : List JsString) : JsString := [lineFeed].intercalate lines

/-! ## Fences -/

/-- `FENCE`: `/^ {0,3}(?:```|~~~)/` -/
def fence : Pattern CodeUnit :=
  .seq .start (.seq (.upTo (.one (· == spaceUnit)) 3) (.alt (literal "```") (literal "~~~")))

/-- `FENCE.test(line)` -/
def isFence (line : JsString) : Bool := fence.test line

/-- A line the pattern matches: at most three spaces, and three back-ticks or tildes. -/
theorem isFence_iff {line : JsString} :
    isFence line = true ↔ ∃ n rest, n ≤ 3 ∧
      (line = List.replicate n spaceUnit ++ (lit "```" ++ rest) ∨
        line = List.replicate n spaceUnit ++ (lit "~~~" ++ rest)) := by
  rw [isFence, fence, Pattern.test_start]
  simp only [Pattern.mem_run_seq, Pattern.mem_run_upTo_one, Pattern.mem_run_alt, literal,
    Pattern.mem_run_word]
  constructor
  · rintro ⟨d, _, ⟨w, rest, h, hlength, hw, rfl⟩, hmark⟩
    have hspaces : w = List.replicate w.length spaceUnit :=
      List.eq_replicate_of_mem fun u hu => eq_of_beq (hw u hu)
    obtain ⟨rest', hrest, -⟩ | ⟨rest', hrest, -⟩ := hmark
    · obtain rfl : rest = lit "```" ++ rest' := hrest
      exact ⟨w.length, rest', hlength, .inl (hspaces ▸ h)⟩
    · obtain rfl : rest = lit "~~~" ++ rest' := hrest
      exact ⟨w.length, rest', hlength, .inr (hspaces ▸ h)⟩
  · rintro ⟨n, rest, hn, rfl | rfl⟩
    · exact ⟨_, _, ⟨_, _, rfl, by simpa using hn, by simp, rfl⟩, .inl ⟨rest, rfl, rfl⟩⟩
    · exact ⟨_, _, ⟨_, _, rfl, by simpa using hn, by simp, rfl⟩, .inr ⟨rest, rfl, rfl⟩⟩

/-! ## Toggles -/

/-- Whether a reader is aside after a line, who turns aside at a fence and back at the next. -/
def toggle (fenced : Bool) (line : JsString) : Bool := if isFence line then !fenced else fenced

/-- Such a reader sees a line. -/
def isSeen (fenced : Bool) (line : JsString) : Bool := !(isFence line || fenced)

/-- The lines that he sees. -/
def seenLines (lines : List JsString) : List JsString :=
  CommonMark.watched toggle isSeen false lines

/-- He is where he was after an even number of fences. -/
theorem foldl_toggle_eq_false {fenced : Bool} {lines : List JsString} :
    lines.foldl toggle fenced = false ↔ (Even (lines.countP isFence) ↔ fenced = false) := by
  induction lines generalizing fenced with
  | nil => simp
  | cons line lines ih =>
    rw [List.foldl_cons, ih, toggle]
    by_cases hfence : isFence line = true
    · rw [if_pos hfence, List.countP_cons_of_pos hfence, Nat.even_add_one]
      cases fenced <;> simp
    · rw [if_neg hfence, List.countP_cons_of_neg hfence]

/-- A line is seen when it is no fence and an even number of fences stands before it. -/
theorem mem_seenLines {lines : List JsString} {line : JsString} :
    line ∈ seenLines lines ↔ isFence line = false ∧
      ∃ before after, lines = before ++ line :: after ∧ Even (before.countP isFence) := by
  rw [seenLines, CommonMark.mem_watched]
  simp only [isSeen, Bool.not_eq_true', Bool.or_eq_false_iff, foldl_toggle_eq_false, iff_true]
  tauto

/-! ## Fences of CommonMark -/

/-- Each fence opens or closes a block, with the fence that is open before the lines. -/
def Paired : Option CommonMark.Fence → List JsString → Prop
  | _, [] => True
  | fence, line :: lines =>
      (isFence line = true → CommonMark.acts fence line = true) ∧
        Paired (CommonMark.step fence line) lines

/-- A line that acts as a fence is read as one. -/
theorem isFence_of_acts {fence : Option CommonMark.Fence} {line : JsString}
    (h : CommonMark.acts fence line = true) : isFence line = true := by
  obtain ⟨mark, n, rest, rfl | rfl, hn, hline⟩ := CommonMark.exists_marks_of_acts h
  · exact isFence_iff.mpr ⟨n, rest, hn, .inl hline⟩
  · exact isFence_iff.mpr ⟨n, rest, hn, .inr hline⟩

/-- With the fences paired, the reader is aside exactly in the fenced blocks. -/
theorem foldl_toggle_of_paired {fence : Option CommonMark.Fence} {before after : List JsString}
    (h : Paired fence (before ++ after)) :
    before.foldl toggle fence.isSome = (before.foldl CommonMark.step fence).isSome := by
  induction before generalizing fence with
  | nil => rfl
  | cons line before ih =>
    obtain ⟨hacts, hrest⟩ := h
    have hline : isFence line = CommonMark.acts fence line :=
      Bool.eq_iff_iff.mpr ⟨hacts, isFence_of_acts⟩
    have htoggle : toggle fence.isSome line = (CommonMark.step fence line).isSome := by
      rw [CommonMark.isSome_step, toggle, hline]
      cases CommonMark.acts fence line <;> simp
    rw [List.foldl_cons, List.foldl_cons, htoggle, ih hrest]

/-- In a text of paired fences, a line that is read as a fence acts as one. -/
theorem acts_of_paired {fence : Option CommonMark.Fence} {before after : List JsString}
    {line : JsString} (h : Paired fence (before ++ line :: after)) (hline : isFence line = true) :
    CommonMark.acts (before.foldl CommonMark.step fence) line = true := by
  induction before generalizing fence with
  | nil => exact h.1 hline
  | cons first before ih => exact ih h.2

/-- With the fences paired, what CommonMark has in no fenced block is seen. -/
theorem mem_seenLines_of_outside {text line : JsString} (hcr : CommonMark.cr ∉ text)
    (hpaired : Paired none (linesOf text))
    (h : line ∈ CommonMark.outsideFences (CommonMark.lines text)) :
    line ∈ seenLines (linesOf text) := by
  rw [CommonMark.outsideFences, CommonMark.lines, CommonMark.normalize_of_notMem hcr,
    CommonMark.mem_watched] at h
  obtain ⟨before, after, hlines, houtside⟩ := h
  replace hlines : linesOf text = before ++ line :: after := hlines
  rw [hlines] at hpaired
  rw [CommonMark.isOutside, Bool.and_eq_true, Option.isNone_iff_eq_none] at houtside
  obtain ⟨hnone, hopens⟩ := houtside
  have htoggle : before.foldl toggle false = false :=
    (foldl_toggle_of_paired hpaired).trans (by rw [hnone]; rfl)
  refine mem_seenLines.mpr ⟨Bool.eq_false_iff.mpr fun hfence => ?_, before, after, hlines,
    (foldl_toggle_eq_false.mp htoggle).mpr rfl⟩
  have hacts := acts_of_paired hpaired hfence
  rw [hnone, CommonMark.acts, Option.isSome_iff_ne_none] at hacts
  exact hacts (Option.isNone_iff_eq_none.mp hopens)

end MetaframerKernel.Patterns
