import MetaframerKernel.Tools.ArchitectureFitness

/-!
# Module texts under the scan

The text of a module is a sequence of elements: tokens and white space, comments, strings, templates
with their holes, and pairs of braces. The scan gives each letter the mark of its element, as long
as the tokens have none of the letters that begin a comment, a string or a template, which only a
regular expression or the first line can have, and no line comment ends before a line feed.

## Main definitions

* `Source`, `Template`: texts by their elements; `marks`: which letters are inert;
* `Source.Legible`: what the scan relies on.

## Main results

* `scanCode_source`, `scanTemplate_template`: the scan of a text by its elements;
* `codeMask_source`: the marks of a text.
-/

namespace MetaframerKernel.ArchitectureFitness

open Js Patterns

/-! ## Elements -/

mutual

/-- A text of a module, by its elements. -/
inductive Source where
  | done
  /-- The letters of tokens and of white space -/
  | code (w : JsString) (next : Source)
  /-- A comment up to the end of its line -/
  | line (body : JsString) (next : Source)
  /-- A comment between its marks -/
  | block (body : JsString) (next : Source)
  | string (quote : CodeUnit) (body : JsString) (next : Source)
  | template (inner : Template) (next : Source)
  | braces (inner next : Source)

/-- A template behind its first back-tick. -/
inductive Template where
  | done
  | letter (u : CodeUnit) (next : Template)
  | escape (u : CodeUnit) (next : Template)
  | hole (inner : Source) (next : Template)

end

mutual

/-- The letters. -/
def Source.text : Source → JsString
  | .done => []
  | .code w next => w ++ next.text
  | .line body next => slash :: slash :: (body ++ next.text)
  | .block body next => slash :: star :: (body ++ star :: slash :: next.text)
  | .string quote body next => quote :: (body ++ quote :: next.text)
  | .template inner next => backTick :: (inner.text ++ next.text)
  | .braces inner next => openBrace :: (inner.text ++ closeBrace :: next.text)

def Template.text : Template → JsString
  | .done => [backTick]
  | .letter u next => u :: next.text
  | .escape u next => backslash :: u :: next.text
  | .hole inner next => dollar :: openBrace :: (inner.text ++ closeBrace :: next.text)

end

/-- The same mark for each letter. -/
def marked (mark : Bool) (w : JsString) : List Bool := w.map fun _ => mark

mutual

/-- The marks of the letters. The brace that ends a hole is read as code. -/
def Source.marks : Source → List Bool
  | .done => []
  | .code w next => marked false w ++ next.marks
  | .line body next => true :: true :: (marked true body ++ next.marks)
  | .block body next => true :: true :: (marked true body ++ true :: true :: next.marks)
  | .string _ body next => true :: (marked true body ++ true :: next.marks)
  | .template inner next => true :: (inner.marks ++ next.marks)
  | .braces inner next => false :: (inner.marks ++ false :: next.marks)

def Template.marks : Template → List Bool
  | .done => [true]
  | .letter _ next => true :: next.marks
  | .escape _ next => true :: true :: next.marks
  | .hole inner next => true :: true :: (inner.marks ++ false :: next.marks)

end

/-- A template has its back ticks. -/
theorem Template.text_ne_nil (t : Template) : t.text ≠ [] := by
  cases t <;> exact List.cons_ne_nil _ _

/-- A text has a mark for each unit. -/
@[simp] theorem length_marked (mark : Bool) (w : JsString) : (marked mark w).length = w.length :=
  List.length_map _

mutual

/-- Each letter has a mark. -/
theorem Source.length_marks : ∀ s : Source, s.marks.length = s.text.length
  | .done => rfl
  | .code w next => by simp [Source.marks, Source.text, next.length_marks]
  | .line body next => by simp [Source.marks, Source.text, next.length_marks]
  | .block body next => by simp [Source.marks, Source.text, next.length_marks]
  | .string quote body next => by simp [Source.marks, Source.text, next.length_marks]
  | .template inner next => by simp [Source.marks, Source.text, inner.length_marks,
      next.length_marks]
  | .braces inner next => by simp [Source.marks, Source.text, inner.length_marks, next.length_marks]

/-- A template has a mark for each unit. -/
theorem Template.length_marks : ∀ t : Template, t.marks.length = t.text.length
  | .done => rfl
  | .letter u next => by simp [Template.marks, Template.text, next.length_marks]
  | .escape u next => by simp [Template.marks, Template.text, next.length_marks]
  | .hole inner next => by simp [Template.marks, Template.text, inner.length_marks,
      next.length_marks]

end

/-! ## Legible texts -/

/-- Letters that the scan reads as code before a text: none begins a comment, a string or a
template, and within a hole the braces among them are pairs, of which so many are open. -/
def Plain (hole : Bool) (k : JsString) : ℕ → JsString → Prop
  | opened, [] => opened = 0
  | opened, u :: w =>
      isQuote u = false ∧ u ≠ backTick ∧
        (u = slash → (w ++ k).head? ≠ some slash ∧ (w ++ k).head? ≠ some star) ∧
        if hole = true ∧ u = openBrace then Plain hole k (opened + 1) w
        else if hole = true ∧ u = closeBrace then ∃ left, opened = left + 1 ∧ Plain hole k left w
        else Plain hole k opened w

/-- Letters without quotes, back-ticks, slashes and braces are read as code. -/
theorem plain_of_all {hole : Bool} {k w : JsString}
    (h : w.all (fun u => !isQuote u && u != backTick && u != slash && !isBrace u) = true) :
    Plain hole k 0 w := by
  induction w with
  | nil => rfl
  | cons u w ih =>
    rw [List.all_cons, Bool.and_eq_true] at h
    obtain ⟨hu, hw⟩ := h
    simp only [isBrace, Bool.and_eq_true, Bool.not_eq_true', bne_iff_ne, ne_eq,
      Bool.or_eq_false_iff, beq_eq_false_iff_ne] at hu
    obtain ⟨⟨⟨hquote, htick⟩, hslash⟩, hopen, hclose⟩ := hu
    refine ⟨hquote, htick, fun h => absurd h hslash, ?_⟩
    rw [if_neg fun h => hopen h.2, if_neg fun h => hclose h.2]
    exact ih hw

/-- What stands between the quotes of a string: a backslash takes the next letter with it. -/
inductive IsBody (quote : CodeUnit) : JsString → Prop where
  | nil : IsBody quote []
  | letter {u : CodeUnit} {w : JsString} (hclosed : u ≠ quote) (hescape : u ≠ backslash)
      (hw : IsBody quote w) : IsBody quote (u :: w)
  | escape {u : CodeUnit} {w : JsString} (hw : IsBody quote w) : IsBody quote (backslash :: u :: w)

mutual

/-- What the scan relies on, before a text. -/
def Source.Legible (hole : Bool) (k : JsString) : Source → Prop
  | .done => True
  -- what counts as plain code depends on the text behind it
  | .code w next => Plain hole (next.text ++ k) 0 w ∧ next.Legible hole k
  | .line body next =>
      lineFeed ∉ body ∧ (∀ u ∈ (next.text ++ k).head?, u = lineFeed) ∧ next.Legible hole k
  | .block body next => ¬ [star, slash] <:+: body ∧ next.Legible hole k
  | .string quote body next => isQuote quote = true ∧ IsBody quote body ∧ next.Legible hole k
  | .template inner next => inner.Legible (next.text ++ k) ∧ next.Legible hole k
  | .braces inner next =>
      inner.Legible hole (closeBrace :: (next.text ++ k)) ∧ next.Legible hole k

def Template.Legible (k : JsString) : Template → Prop
  | .done => True
  | .letter u next =>
      u ≠ backTick ∧ u ≠ backslash ∧ (u = dollar → next.text.head? ≠ some openBrace) ∧
        next.Legible k
  | .escape _ next => next.Legible k
  | .hole inner next => inner.Legible true (closeBrace :: (next.text ++ k)) ∧ next.Legible k

end

/-! ## The scan of an element -/

/-- A line comment is marked up to the line feed. -/
theorem scanLine_of_notMem {body k : JsString} (hbody : lineFeed ∉ body)
    (hk : ∀ u ∈ k.head?, u = lineFeed) : scanLine (body ++ k) = ⟨marked true body, k⟩ := by
  induction body with
  | nil =>
    cases k with
    | nil => rfl
    | cons u k => rw [List.nil_append, scanLine, if_pos (hk u rfl)]; rfl
  | cons u body ih =>
    have hu : u ≠ lineFeed := fun h => hbody (h ▸ List.mem_cons_self)
    rw [List.cons_append, scanLine, if_neg hu, ih fun h => hbody (List.mem_cons_of_mem u h)]
    rfl

/-- A block comment is marked up to its end. -/
theorem scanBlock_of_not_infix {body k : JsString} (hbody : ¬ [star, slash] <:+: body) :
    scanBlock (body ++ star :: slash :: k) = ⟨marked true body ++ [true, true], k⟩ := by
  induction body with
  | nil => rfl
  | cons u body ih =>
    have hopen : ¬ (u = star ∧ (body ++ star :: slash :: k).head? = some slash) := by
      rintro ⟨rfl, h⟩
      cases body with
      | nil => cases h
      | cons v body =>
        obtain rfl : v = slash := Option.some.inj h
        exact hbody ⟨[], body, rfl⟩
    have hrest : ¬ [star, slash] <:+: body := fun h => hbody (List.infix_cons h)
    rw [List.cons_append, scanBlock, if_neg hopen, ih hrest]
    rfl

/-- A letter of a string is marked. -/
theorem scanString_letter {quote u : CodeUnit} {w : JsString} (hw : w ≠ []) (hclosed : u ≠ quote)
    (hescape : u ≠ backslash) : scanString quote (u :: w) = (scanString quote w).after [true] := by
  obtain ⟨v, w, rfl⟩ := List.exists_cons_of_ne_nil hw
  rw [scanString, if_neg hclosed, if_neg hescape]

/-- An escape is marked with what it escapes. -/
theorem scanString_escape {quote u : CodeUnit} {w : JsString} (hquote : backslash ≠ quote) :
    scanString quote (backslash :: u :: w) = (scanString quote w).after [true, true] := by
  rw [scanString, if_neg hquote, if_pos rfl]

/-- A string is marked up to its closing quote. -/
theorem scanString_of_isBody {quote : CodeUnit} (hquote : backslash ≠ quote) {body k : JsString}
    (h : IsBody quote body) :
    scanString quote (body ++ quote :: k) = ⟨marked true body ++ [true], k⟩ := by
  induction h with
  | nil =>
    cases k with
    | nil => rfl
    | cons u k => rw [List.nil_append, scanString, if_pos rfl]; rfl
  | letter hclosed hescape _ ih =>
    have hne {w : JsString} : w ++ quote :: k ≠ [] := by simp
    rw [List.cons_append, scanString_letter hne hclosed hescape, ih]
    rfl
  | escape _ ih =>
    rw [List.cons_append, List.cons_append, scanString_escape hquote, ih]
    rfl

/-! ## The scan of code -/

section Code

variable {hole : Bool} {fuel depth : ℕ} {text : JsString}

/-- One step over code, by what is ahead. -/
theorem scanCode_cons (ch : CodeUnit) :
    scanCode hole (fuel + 1) depth (ch :: text) =
      if ch = slash ∧ text.head? = some slash then
        (scanCode hole fuel depth (scanLine (ch :: text)).rest).after (scanLine (ch :: text)).mask
      else if ch = slash ∧ text.head? = some star then
        (scanCode hole fuel depth (scanBlock text.tail).rest).after
          (true :: true :: (scanBlock text.tail).mask)
      else if isQuote ch = true then
        (scanCode hole fuel depth (scanString ch text).rest).after
          (true :: (scanString ch text).mask)
      else if ch = backTick then
        (scanCode hole fuel depth (scanTemplate fuel text).rest).after
          (true :: (scanTemplate fuel text).mask)
      else if hole = true ∧ ch = openBrace then (scanCode hole fuel (depth + 1) text).after [false]
      else if hole = true ∧ ch = closeBrace then
        match depth with
        | 0 => ⟨[false], text⟩
        | depth + 1 => (scanCode hole fuel depth text).after [false]
      else (scanCode hole fuel depth text).after [false] := rfl

/-- One step over a template, by what is ahead. -/
theorem scanTemplate_cons (u : CodeUnit) :
    scanTemplate (fuel + 1) (u :: text) =
      if u = backTick then ⟨[true], text⟩
      else if u = backslash then
        match text with
        | [] => ⟨[true], []⟩
        | _ :: rest => (scanTemplate fuel rest).after [true, true]
      else if u = dollar ∧ text.head? = some openBrace then
        (scanTemplate fuel (scanCode true fuel 0 text.tail).rest).after
          (true :: true :: (scanCode true fuel 0 text.tail).mask)
      else (scanTemplate fuel text).after [true] := rfl

/-- A line comment, -/
theorem scanCode_line {body k : JsString} (hbody : lineFeed ∉ body)
    (hk : ∀ u ∈ k.head?, u = lineFeed) :
    scanCode hole (fuel + 1) depth (slash :: slash :: (body ++ k)) =
      (scanCode hole fuel depth k).after (true :: true :: marked true body) := by
  have hbody' : lineFeed ∉ slash :: slash :: body := by simpa [lineFeed, slash] using hbody
  rw [scanCode_cons, if_pos ⟨rfl, rfl⟩, ← List.cons_append, ← List.cons_append,
    scanLine_of_notMem hbody' hk]
  rfl

/-- a block comment, -/
theorem scanCode_block {body k : JsString} (hbody : ¬ [star, slash] <:+: body) :
    scanCode hole (fuel + 1) depth (slash :: star :: (body ++ star :: slash :: k)) =
      (scanCode hole fuel depth k).after (true :: true :: (marked true body ++ [true, true])) := by
  rw [scanCode_cons, if_neg (by simp [slash, star]), if_pos ⟨rfl, rfl⟩, List.tail_cons,
    scanBlock_of_not_infix hbody]

/-- a string -/
theorem scanCode_string {quote : CodeUnit} {body k : JsString} (hquote : isQuote quote = true)
    (hbody : IsBody quote body) :
    scanCode hole (fuel + 1) depth (quote :: (body ++ quote :: k)) =
      (scanCode hole fuel depth k).after (true :: (marked true body ++ [true])) := by
  have hslash : quote ≠ slash := by rintro rfl; cases hquote
  have hescape : backslash ≠ quote := by rintro rfl; cases hquote
  rw [scanCode_cons, if_neg fun h => hslash h.1, if_neg fun h => hslash h.1, if_pos hquote,
    scanString_of_isBody hescape hbody]

/-- and a template are read over. -/
theorem scanCode_template {marks : List Bool} {k : JsString}
    (h : scanTemplate fuel text = ⟨marks, k⟩) :
    scanCode hole (fuel + 1) depth (backTick :: text) =
      (scanCode hole fuel depth k).after (true :: marks) := by
  rw [scanCode_cons, if_neg (by simp [backTick, slash]), if_neg (by simp [backTick, slash]),
    if_neg (by decide), if_pos rfl, h]

/-- A brace within a hole goes down, -/
theorem scanCode_open :
    scanCode true (fuel + 1) depth (openBrace :: text) =
      (scanCode true fuel (depth + 1) text).after [false] := by
  rw [scanCode_cons, if_neg (by simp [openBrace, slash]), if_neg (by simp [openBrace, slash]),
    if_neg (by decide), if_neg (by decide), if_pos ⟨rfl, rfl⟩]

/-- and comes up again, -/
theorem scanCode_close :
    scanCode true (fuel + 1) (depth + 1) (closeBrace :: text) =
      (scanCode true fuel depth text).after [false] := by
  rw [scanCode_cons, if_neg (by simp [closeBrace, slash]), if_neg (by simp [closeBrace, slash]),
    if_neg (by decide), if_neg (by decide), if_neg (by decide), if_pos ⟨rfl, rfl⟩]

/-- or ends the hole. -/
theorem scanCode_end : scanCode true (fuel + 1) 0 (closeBrace :: text) = ⟨[false], text⟩ := by
  rw [scanCode_cons, if_neg (by simp [closeBrace, slash]), if_neg (by simp [closeBrace, slash]),
    if_neg (by decide), if_neg (by decide), if_neg (by decide), if_pos ⟨rfl, rfl⟩]

/-- Another letter of code is read alone. -/
theorem scanCode_letter {u : CodeUnit} (hquote : isQuote u = false) (htick : u ≠ backTick)
    (hslash : u = slash → text.head? ≠ some slash ∧ text.head? ≠ some star)
    (hbrace : hole = true → isBrace u = false) :
    scanCode hole (fuel + 1) depth (u :: text) = (scanCode hole fuel depth text).after [false] := by
  have hopen : ¬ (hole = true ∧ u = openBrace) := by
    rintro ⟨h, rfl⟩
    cases hbrace h
  have hclose : ¬ (hole = true ∧ u = closeBrace) := by
    rintro ⟨h, rfl⟩
    cases hbrace h
  rw [scanCode_cons, if_neg fun h => (hslash h.1).1 h.2, if_neg fun h => (hslash h.1).2 h.2,
    if_neg (Bool.eq_false_iff.mp hquote), if_neg htick, if_neg hopen, if_neg hclose]

end Code

/-! ## The scan of a text -/

/-- The scan reads letters before a text, at any depth, and is left with fuel for the text. -/
def IsRead (hole : Bool) (w : JsString) (marks : List Bool) (k : JsString) : Prop :=
  ∀ fuel depth, (w ++ k).length < fuel → ∃ left, k.length < left ∧
    scanCode hole fuel depth (w ++ k) = (scanCode hole left depth k).after marks

section Reading

variable {hole : Bool} {v w k : JsString} {first second marks : List Bool}

/-- No text is read with no marks. -/
theorem isRead_nil : IsRead hole [] [] k := fun fuel _ h => ⟨fuel, h, rfl⟩

/-- Texts are read one after the other. -/
theorem IsRead.append (hv : IsRead hole v first (w ++ k)) (hw : IsRead hole w second k) :
    IsRead hole (v ++ w) (first ++ second) k := by
  intro fuel depth h
  rw [List.append_assoc] at h ⊢
  obtain ⟨between, hbetween, hfirst⟩ := hv fuel depth h
  obtain ⟨left, hleft, hsecond⟩ := hw between depth hbetween
  refine ⟨left, hleft, ?_⟩
  rw [hfirst, hsecond, Scan.after_after]

/-- What is read in one step is read. -/
theorem isRead_of_step (hw : w ≠ [])
    (h : ∀ fuel depth, (w ++ k).length < fuel + 1 →
      scanCode hole (fuel + 1) depth (w ++ k) = (scanCode hole fuel depth k).after marks) :
    IsRead hole w marks k := by
  intro fuel depth hfuel
  cases fuel with
  | zero => exact absurd hfuel (Nat.not_lt_zero _)
  | succ fuel =>
    have hpos : 0 < w.length := List.length_pos_iff.mpr hw
    refine ⟨fuel, ?_, h fuel depth hfuel⟩
    rw [List.length_append] at hfuel
    omega

/-- A letter that begins nothing is code. -/
theorem isRead_letter {u : CodeUnit} (hquote : isQuote u = false) (htick : u ≠ backTick)
    (hslash : u = slash → k.head? ≠ some slash ∧ k.head? ≠ some star)
    (hbrace : hole = true → isBrace u = false) : IsRead hole [u] [false] k :=
  isRead_of_step (List.cons_ne_nil _ _) fun _ _ _ => scanCode_letter hquote htick hslash hbrace

/-- A line comment is read whole. -/
theorem isRead_line {body : JsString} (hbody : lineFeed ∉ body)
    (hk : ∀ u ∈ k.head?, u = lineFeed) :
    IsRead hole (slash :: slash :: body) (true :: true :: marked true body) k :=
  isRead_of_step (List.cons_ne_nil _ _) fun _ _ _ => scanCode_line hbody hk

/-- A block comment is read whole. -/
theorem isRead_block {body : JsString} (hbody : ¬ [star, slash] <:+: body) :
    IsRead hole (slash :: star :: (body ++ [star, slash]))
      (true :: true :: (marked true body ++ [true, true])) k := by
  refine isRead_of_step (List.cons_ne_nil _ _) fun fuel depth _ => ?_
  rw [List.cons_append, List.cons_append, List.append_assoc]
  exact scanCode_block hbody

/-- A string is read whole. -/
theorem isRead_string {quote : CodeUnit} {body : JsString} (hquote : isQuote quote = true)
    (hbody : IsBody quote body) :
    IsRead hole (quote :: (body ++ [quote])) (true :: (marked true body ++ [true])) k := by
  refine isRead_of_step (List.cons_ne_nil _ _) fun fuel depth _ => ?_
  rw [List.cons_append, List.append_assoc]
  exact scanCode_string hquote hbody

/-- A template is read as it is scanned. -/
theorem isRead_template
    (h : ∀ fuel, (w ++ k).length < fuel → scanTemplate fuel (w ++ k) = ⟨marks, k⟩) :
    IsRead hole (backTick :: w) (true :: marks) k := by
  refine isRead_of_step (List.cons_ne_nil _ _) fun fuel depth hfuel => scanCode_template (h fuel ?_)
  rw [List.cons_append, List.length_cons] at hfuel
  omega

/-- Within a hole what stands between braces is read one level below. -/
theorem isRead_braces (h : IsRead hole w marks (closeBrace :: k)) :
    IsRead hole (openBrace :: (w ++ [closeBrace])) (false :: (marks ++ [false])) k := by
  cases hole with
  | false =>
    have hopen : IsRead false [openBrace] [false] (w ++ [closeBrace] ++ k) :=
      isRead_letter (by decide) (by decide) (fun h => absurd h (by decide)) nofun
    have hclose : IsRead false [closeBrace] [false] k :=
      isRead_letter (by decide) (by decide) (fun h => absurd h (by decide)) nofun
    exact hopen.append (h.append hclose)
  | true =>
    intro fuel depth hfuel
    have hsplit : openBrace :: (w ++ [closeBrace]) ++ k = openBrace :: (w ++ closeBrace :: k) := by
      simp
    rw [hsplit] at hfuel ⊢
    obtain ⟨fuel, rfl⟩ := Nat.exists_eq_add_one_of_ne_zero (Nat.ne_zero_of_lt hfuel)
    obtain ⟨between, hbetween, hinner⟩ := h fuel (depth + 1) (Nat.lt_of_succ_lt_succ hfuel)
    obtain ⟨left, rfl⟩ := Nat.exists_eq_add_one_of_ne_zero (Nat.ne_zero_of_lt hbetween)
    refine ⟨left, Nat.lt_of_succ_lt_succ hbetween, ?_⟩
    rw [scanCode_open, hinner, scanCode_close, Scan.after_after, Scan.after_after]
    rfl

/-- Letters of code are read, from the level below at which so many braces are open. -/
theorem scanCode_plain {opened : ℕ} (h : Plain hole k opened w) (fuel depth : ℕ)
    (hfuel : (w ++ k).length < fuel) : ∃ left, k.length < left ∧
      scanCode hole fuel (depth + opened) (w ++ k) =
        (scanCode hole left depth k).after (marked false w) := by
  -- on the letters: a brace within a hole goes a level down or up, any other letter stays
  induction w generalizing opened fuel with
  | nil =>
    obtain rfl : opened = 0 := h
    exact ⟨fuel, hfuel, rfl⟩
  | cons u w ih =>
    obtain ⟨hquote, htick, hslash, hw⟩ := h
    obtain ⟨fuel, rfl⟩ := Nat.exists_eq_add_one_of_ne_zero (Nat.ne_zero_of_lt hfuel)
    have hfuel' : (w ++ k).length < fuel := Nat.lt_of_succ_lt_succ hfuel
    rw [List.cons_append]
    split_ifs at hw with hopen hclose
    · obtain ⟨rfl, rfl⟩ := hopen
      obtain ⟨left, hleft, hrest⟩ := ih hw fuel hfuel'
      refine ⟨left, hleft, ?_⟩
      rw [scanCode_open, Nat.add_assoc, hrest, Scan.after_after]
      rfl
    · obtain ⟨rfl, rfl⟩ := hclose
      obtain ⟨opened, rfl, hw⟩ := hw
      obtain ⟨left, hleft, hrest⟩ := ih hw fuel hfuel'
      refine ⟨left, hleft, ?_⟩
      rw [← Nat.add_assoc, scanCode_close, hrest, Scan.after_after]
      rfl
    · obtain ⟨left, hleft, hrest⟩ := ih hw fuel hfuel'
      have hbrace : hole = true → isBrace u = false := by
        intro hhole
        rw [isBrace, Bool.or_eq_false_iff, beq_eq_false_iff_ne, beq_eq_false_iff_ne]
        exact ⟨fun h => hopen ⟨hhole, h⟩, fun h => hclose ⟨hhole, h⟩⟩
      refine ⟨left, hleft, ?_⟩
      rw [scanCode_letter hquote htick hslash hbrace, hrest, Scan.after_after]
      rfl

/-- Plain code is read without a mark. -/
theorem isRead_plain (h : Plain hole k 0 w) : IsRead hole w (marked false w) k :=
  fun fuel depth hfuel => scanCode_plain h fuel depth hfuel

end Reading

mutual

/-- The scan of a text by its elements. -/
theorem isRead_source (hole : Bool) (k : JsString) :
    ∀ s : Source, s.Legible hole k → IsRead hole s.text s.marks k
  | .done, _ => isRead_nil
  | .code w next, ⟨hw, hnext⟩ => (isRead_plain hw).append (isRead_source hole k next hnext)
  | .line body next, ⟨hbody, hend, hnext⟩ =>
      (isRead_line hbody hend).append (isRead_source hole k next hnext)
  | .block body next, ⟨hbody, hnext⟩ => by
      have h := (isRead_block hbody).append (isRead_source hole k next hnext)
      simpa [Source.text, Source.marks] using h
  | .string quote body next, ⟨hquote, hbody, hnext⟩ => by
      have h := (isRead_string hquote hbody).append (isRead_source hole k next hnext)
      simpa [Source.text, Source.marks] using h
  | .template inner next, ⟨hinner, hnext⟩ =>
      (isRead_template (scanTemplate_template (next.text ++ k) inner hinner)).append
        (isRead_source hole k next hnext)
  | .braces inner next, ⟨hinner, hnext⟩ => by
      have h := (isRead_braces (isRead_source hole _ inner hinner)).append
        (isRead_source hole k next hnext)
      simpa [Source.text, Source.marks] using h

/-- The scan of a template. -/
theorem scanTemplate_template (k : JsString) :
    ∀ t : Template, t.Legible k →
      ∀ fuel, (t.text ++ k).length < fuel → scanTemplate fuel (t.text ++ k) = ⟨t.marks, k⟩
  | .done, _, fuel, hfuel => by
      obtain ⟨fuel, rfl⟩ := Nat.exists_eq_add_one_of_ne_zero (Nat.ne_zero_of_lt hfuel)
      rfl
  | .letter u next, ⟨htick, hescape, hdollar, hnext⟩, fuel, hfuel => by
      obtain ⟨fuel, rfl⟩ := Nat.exists_eq_add_one_of_ne_zero (Nat.ne_zero_of_lt hfuel)
      have ih := scanTemplate_template k next hnext fuel (Nat.lt_of_succ_lt_succ hfuel)
      have hhole : ¬ (u = dollar ∧ (next.text ++ k).head? = some openBrace) := by
        rintro ⟨hu, hopen⟩
        rw [List.head?_append_of_ne_nil _ next.text_ne_nil] at hopen
        exact hdollar hu hopen
      rw [Template.text, List.cons_append, scanTemplate_cons, if_neg htick, if_neg hescape,
        if_neg hhole, ih]
      rfl
  | .escape u next, hnext, fuel, hfuel => by
      obtain ⟨fuel, rfl⟩ := Nat.exists_eq_add_one_of_ne_zero (Nat.ne_zero_of_lt hfuel)
      have hfuel' : (next.text ++ k).length < fuel := by
        simp only [Template.text, List.cons_append, List.length_cons] at hfuel
        omega
      rw [Template.text, List.cons_append, List.cons_append, scanTemplate_cons,
        if_neg (by decide), if_pos rfl]
      dsimp only
      rw [scanTemplate_template k next hnext fuel hfuel']
      rfl
  | .hole inner next, ⟨hinner, hnext⟩, fuel, hfuel => by
      obtain ⟨fuel, rfl⟩ := Nat.exists_eq_add_one_of_ne_zero (Nat.ne_zero_of_lt hfuel)
      have hsplit : (Template.hole inner next).text ++ k =
          dollar :: openBrace :: (inner.text ++ closeBrace :: (next.text ++ k)) := by
        simp [Template.text]
      have hlength : (inner.text ++ closeBrace :: (next.text ++ k)).length < fuel ∧
          (next.text ++ k).length < fuel := by
        rw [hsplit] at hfuel
        simp only [List.length_cons, List.length_append] at hfuel ⊢
        omega
      -- the scan of the code stops at the brace that ends the hole
      obtain ⟨left, hleft, hcode⟩ := isRead_source true _ inner hinner fuel 0 hlength.1
      obtain ⟨left, rfl⟩ := Nat.exists_eq_add_one_of_ne_zero (Nat.ne_zero_of_lt hleft)
      rw [scanCode_end] at hcode
      rw [hsplit, scanTemplate_cons, if_neg (by decide), if_neg (by decide), if_pos ⟨rfl, rfl⟩,
        List.tail_cons, hcode]
      dsimp only [Scan.after]
      rw [scanTemplate_template k next hnext fuel hlength.2]
      simp [Template.marks]

end

/-- The marks of a text: those of its elements, and then those of what follows it. -/
theorem codeMask_source {s : Source} {k : JsString} (h : s.Legible false k) :
    ∃ left, k.length < left ∧
      codeMask (s.text ++ k) = s.marks ++ (scanCode false left 0 k).mask := by
  obtain ⟨left, hleft, hscan⟩ := isRead_source false k s h _ 0 (Nat.lt_succ_self _)
  exact ⟨left, hleft, by rw [codeMask, hscan]; rfl⟩

/-- A letter of a text has the mark that its elements give it. -/
theorem codeMask_mark {s : Source} {k : JsString} (h : s.Legible false k) {n : ℕ} {mark : Bool}
    (hmark : s.marks[n]? = some mark) : (codeMask (s.text ++ k))[n]? = some mark := by
  obtain ⟨left, -, hmask⟩ := codeMask_source h
  rw [hmask, List.getElem?_append_left (List.getElem?_eq_some_iff.mp hmark).1, hmark]

/-- A letter of code behind a text is not marked. -/
theorem codeMask_letter {s : Source} {u : CodeUnit} {k : JsString} (h : s.Legible false (u :: k))
    (hquote : isQuote u = false) (htick : u ≠ backTick) (hslash : u ≠ slash) :
    (codeMask (s.text ++ u :: k))[s.text.length]? = some false := by
  obtain ⟨left, hleft, hmask⟩ := codeMask_source h
  obtain ⟨left, rfl⟩ := Nat.exists_eq_add_one_of_ne_zero (Nat.ne_zero_of_lt hleft)
  have hbrace : false = true → isBrace u = false := nofun
  rw [hmask, ← s.length_marks, List.getElem?_append_right le_rfl, Nat.sub_self,
    scanCode_letter hquote htick (fun h => absurd h hslash) hbrace]
  rfl

end MetaframerKernel.ArchitectureFitness
