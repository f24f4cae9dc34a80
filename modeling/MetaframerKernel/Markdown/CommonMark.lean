import MetaframerKernel.Js.CodeUnits

/-!
# Fenced code blocks and headings of CommonMark

Lines, the fenced code blocks of the document itself and the ATX headings at column zero, as the
specification of CommonMark has them. A line at column zero ends every block quote and list item
and the fences in them, so these are not read here; neither are HTML blocks.

## Main definitions

* `lines`: the lines of a text, ended by LF, CR or both;
* `Fence`: an open fence; `openingFence?`, `closes`: what opens and closes one;
* `outsideFences`: the lines in no fenced block;
* `atxHeading?`: the level and the title of a heading at column zero.

## Main results

* `mem_watched`: what a reader sees who goes through the lines with a state.
-/

namespace CommonMark

open Js

/-! ## Readers -/

section Watched

variable {σ β : Type*} {step : σ → β → σ} {sees : σ → β → Bool}

/-- The elements that a reader sees whose state changes from each to the next. -/
def watched (step : σ → β → σ) (sees : σ → β → Bool) : σ → List β → List β
  | _, [] => []
  | s, b :: bs => if sees s b then b :: watched step sees (step s b) bs
      else watched step sees (step s b) bs

/-- What is seen of some lines is the first one, or seen of the others. -/
theorem mem_watched_cons {s : σ} {b c : β} {bs : List β} :
    b ∈ watched step sees s (c :: bs) ↔
      (b = c ∧ sees s c = true) ∨ b ∈ watched step sees (step s c) bs := by
  rw [watched]
  split
  next h => simp [h]
  next h => simp [h]

/-- An element is seen in the state that those before it lead to. -/
theorem mem_watched {s : σ} {b : β} {bs : List β} :
    b ∈ watched step sees s bs ↔
      ∃ before after, bs = before ++ b :: after ∧ sees (before.foldl step s) b = true := by
  induction bs generalizing s with
  | nil => simp [watched]
  | cons c bs ih =>
    rw [mem_watched_cons, ih]
    constructor
    · rintro (⟨rfl, hsees⟩ | ⟨before, after, rfl, hsees⟩)
      · exact ⟨[], bs, rfl, hsees⟩
      · exact ⟨c :: before, after, rfl, hsees⟩
    · rintro ⟨before, after, h, hsees⟩
      cases before with
      | nil =>
        obtain ⟨rfl, rfl⟩ := List.cons.inj h
        exact .inl ⟨rfl, hsees⟩
      | cons c' before =>
        obtain ⟨rfl, rfl⟩ := List.cons.inj h
        exact .inr ⟨before, after, rfl, hsees⟩

end Watched

/-! ## Lines -/

/-- A line feed. -/
def lf : CodeUnit := 0x0A

/-- A carriage return. -/
def cr : CodeUnit := 0x0D

/-- Each line ending as a line feed. -/
def normalize : JsString → JsString
  | [] => []
  | u :: rest =>
      if u = cr then
        if rest.head? = some lf then normalize rest else lf :: normalize rest
      else u :: normalize rest

/-- The lines of a text. -/
def lines (text : JsString) : List JsString := (normalize text).splitOn lf

/-- A text without carriage returns is its own normal form. -/
theorem normalize_of_notMem {text : JsString} (h : cr ∉ text) : normalize text = text := by
  induction text with
  | nil => rfl
  | cons u rest ih =>
    obtain ⟨hu, hrest⟩ := List.ne_and_not_mem_of_not_mem_cons h
    rw [normalize, if_neg (Ne.symm hu), ih hrest]

/-- A space or a tab. -/
def isBlank (u : CodeUnit) : Bool := u.val == 0x20 || u.val == 0x09

/-- A text without the letters of a class around it. -/
def stripBy (p : CodeUnit → Bool) (s : JsString) : JsString :=
  ((s.dropWhile p).reverse.dropWhile p).reverse

/-- A text without the spaces and tabs around it. -/
def strip (s : JsString) : JsString := stripBy isBlank s

/-- A text is what is left of it when stripped, with letters of the class around it. -/
theorem exists_stripBy (p : CodeUnit → Bool) (s : JsString) :
    ∃ lead trail, s = lead ++ (stripBy p s ++ trail) ∧ (∀ u ∈ lead, p u = true) ∧
      (∀ u ∈ trail, p u = true) ∧ (∀ u ∈ (stripBy p s).getLast?, p u = false) ∧
      ∀ u ∈ (stripBy p s ++ trail).head?, p u = false := by
  have hsplit (t : JsString) : (∀ u ∈ t.takeWhile p, p u = true) ∧
      ∀ u ∈ (t.dropWhile p).head?, p u = false := by
    refine ⟨fun u hu => List.all_eq_true.mp List.all_takeWhile u hu, fun u hu => ?_⟩
    have hnot := List.head?_dropWhile_not p t
    rw [Option.mem_def.mp hu] at hnot
    simpa using hnot
  -- what is taken off at the end is taken off the reversed text
  have hrest : stripBy p s ++ ((s.dropWhile p).reverse.takeWhile p).reverse = s.dropWhile p := by
    rw [stripBy, ← List.reverse_append, List.takeWhile_append_dropWhile, List.reverse_reverse]
  refine ⟨s.takeWhile p, ((s.dropWhile p).reverse.takeWhile p).reverse, ?_, (hsplit s).1,
    fun u hu => ?_, fun u hu => ?_, ?_⟩
  · rw [hrest, List.takeWhile_append_dropWhile]
  · exact (hsplit _).1 u (List.mem_reverse.mp hu)
  · rw [stripBy, List.getLast?_reverse] at hu
    exact (hsplit _).2 u hu
  · rw [hrest]
    exact (hsplit s).2

/-- A line is its text between blanks. -/
theorem exists_strip (s : JsString) :
    ∃ lead trail, s = lead ++ (strip s ++ trail) ∧ (∀ u ∈ lead, isBlank u = true) ∧
      (∀ u ∈ trail, isBlank u = true) ∧ (∀ u ∈ (strip s).getLast?, isBlank u = false) ∧
      ∀ u ∈ (strip s ++ trail).head?, isBlank u = false := exists_stripBy isBlank s

/-! ## Fences -/

/-- A space. -/
def space : CodeUnit := 0x20

/-- A back-tick. -/
def backtick : CodeUnit := 0x60

/-- A tilde. -/
def tilde : CodeUnit := 0x7E

/-- An open fence: its character and its length. -/
structure Fence where
  mark : CodeUnit
  length : ℕ
  mark_eq : mark = backtick ∨ mark = tilde
  three_le : 3 ≤ length

/-- The spaces a line begins with. -/
def indent (line : JsString) : ℕ := (line.takeWhile (· == space)).length

/-- The line behind these. -/
def unindented (line : JsString) : JsString := line.dropWhile (· == space)

/-- The run of a character at the start of a text. -/
def run (mark : CodeUnit) (s : JsString) : ℕ := (s.takeWhile (· == mark)).length

/-- What is behind the run. -/
def behindRun (mark : CodeUnit) (s : JsString) : JsString := s.dropWhile (· == mark)

/-- The fence that a line opens with one of the two characters. -/
def fenceOf? (line : JsString) (mark : CodeUnit) (h : mark = backtick ∨ mark = tilde) :
    Option Fence :=
  if hrun : 3 ≤ run mark (unindented line) then
    if indent line ≤ 3 ∧ (mark = backtick → backtick ∉ behindRun mark (unindented line)) then
      some ⟨mark, run mark (unindented line), h, hrun⟩
    else none
  else none

/-- The fence that a line opens. The info string of back-ticks has none. -/
def openingFence? (line : JsString) : Option Fence :=
  (fenceOf? line backtick (.inl rfl)).or (fenceOf? line tilde (.inr rfl))

/-- A line closes a fence by the same character at least as often, and nothing else. -/
def closes (fence : Fence) (line : JsString) : Bool :=
  decide (indent line ≤ 3 ∧ fence.length ≤ run fence.mark (unindented line)) &&
    (behindRun fence.mark (unindented line)).all isBlank

/-- The open fence after a line. -/
def step (fence : Option Fence) (line : JsString) : Option Fence :=
  match fence with
  | none => openingFence? line
  | some f => if closes f line then none else some f

/-- A line opens or closes a block. -/
def acts (fence : Option Fence) (line : JsString) : Bool :=
  match fence with
  | none => (openingFence? line).isSome
  | some f => closes f line

/-- Exactly such lines change whether a fence is open. -/
theorem isSome_step (fence : Option Fence) (line : JsString) :
    (step fence line).isSome = (fence.isSome != acts fence line) := by
  cases fence with
  | none => simp [step, acts]
  | some f => cases hcloses : closes f line <;> simp [step, acts, hcloses]

/-- A text is its run of a character and what is behind it. -/
theorem eq_replicate_run (mark : CodeUnit) (s : JsString) :
    s = List.replicate (run mark s) mark ++ behindRun mark s := by
  conv_lhs => rw [← List.takeWhile_append_dropWhile (p := (· == mark)) (l := s)]
  congr 1
  exact List.eq_replicate_of_mem fun u hu => eq_of_beq (List.all_eq_true.mp List.all_takeWhile u hu)

/-- Such a line begins with at most three spaces and three marks. -/
theorem exists_marks_of_run {mark : CodeUnit} {line : JsString} (hindent : indent line ≤ 3)
    (hrun : 3 ≤ run mark (unindented line)) :
    ∃ n rest, n ≤ 3 ∧ line = List.replicate n space ++ (List.replicate 3 mark ++ rest) := by
  obtain ⟨n, hn⟩ := Nat.exists_eq_add_of_le hrun
  refine ⟨indent line, List.replicate n mark ++ behindRun mark (unindented line), hindent, ?_⟩
  conv_lhs => rw [eq_replicate_run space line]
  congr 1
  rw [← List.append_assoc, List.replicate_append_replicate, ← hn]
  exact eq_replicate_run mark (unindented line)

/-- A fence is indented by three columns at most and has three marks at least. -/
theorem marks_of_fenceOf? {line : JsString} {mark : CodeUnit} {h : mark = backtick ∨ mark = tilde}
    (hfence : (fenceOf? line mark h).isSome = true) :
    indent line ≤ 3 ∧ 3 ≤ run mark (unindented line) := by
  rw [fenceOf?] at hfence
  split at hfence
  next hrun =>
    split at hfence
    next hindent => exact ⟨hindent.1, hrun⟩
    next => cases hfence
  next => cases hfence

/-- A line that opens or closes a block is spelled like one. -/
theorem exists_marks_of_acts {fence : Option Fence} {line : JsString}
    (h : acts fence line = true) :
    ∃ mark n rest, (mark = backtick ∨ mark = tilde) ∧ n ≤ 3 ∧
      line = List.replicate n space ++ (List.replicate 3 mark ++ rest) := by
  cases fence with
  | none =>
    rw [acts, openingFence?, Option.isSome_or, Bool.or_eq_true] at h
    obtain hopens | hopens := h
    · obtain ⟨hindent, hrun⟩ := marks_of_fenceOf? hopens
      obtain ⟨n, rest, hn, hline⟩ := exists_marks_of_run hindent hrun
      exact ⟨backtick, n, rest, .inl rfl, hn, hline⟩
    · obtain ⟨hindent, hrun⟩ := marks_of_fenceOf? hopens
      obtain ⟨n, rest, hn, hline⟩ := exists_marks_of_run hindent hrun
      exact ⟨tilde, n, rest, .inr rfl, hn, hline⟩
  | some f =>
    rw [acts, closes, Bool.and_eq_true, decide_eq_true_iff] at h
    obtain ⟨n, rest, hn, hline⟩ := exists_marks_of_run h.1.1 (f.three_le.trans h.1.2)
    exact ⟨f.mark, n, rest, f.mark_eq, hn, hline⟩

/-- A line belongs to no fenced block. -/
def isOutside (fence : Option Fence) (line : JsString) : Bool :=
  fence.isNone && (openingFence? line).isNone

/-- The lines of no fenced block. -/
def outsideFences (lines : List JsString) : List JsString := watched step isOutside none lines

/-! ## Headings -/

/-- `#` -/
def hash : CodeUnit := 0x23

/-- The content of a heading without its closing sequence. -/
def withoutClosing (s : JsString) : JsString :=
  let body := (s.reverse.dropWhile (· == hash)).reverse
  if body.getLast?.all isBlank then strip body else s

/-- The level and the title of an ATX heading at column zero. -/
def atxHeading? (line : JsString) : Option (ℕ × JsString) :=
  let level := run hash line
  let rest := behindRun hash line
  if 1 ≤ level ∧ level ≤ 6 ∧ rest.head?.all isBlank then
    some (level, withoutClosing (strip rest))
  else none

end CommonMark
