import MetaframerKernel.Tools.RepositoryBoundary

/-!
# What the readiness fence sees

An assertion `flag=true` on a line that is seen, behind an even number of fences, is asserted by
one of the semantic units: taking a line out of its container, joining the lines of a chunk,
reducing the white space and cutting the text into sentences leave it as it stands.

## Main definitions

* `Asserts`: a text asserts a flag;
* `SeesAssertion`: a line that is seen asserts a closed stage.

## Main results

* `test_flagPattern`: the pattern matches a text that asserts the flag;
* `exists_unit_of_sees`: what is asserted on a line that is seen, a unit asserts;
* `readmeContractViolations_ne_nil_of_sees`: there is a finding when a line that is seen asserts a
  closed stage.
-/

namespace MetaframerKernel.RepositoryBoundary

open Js RegExp Patterns

/-! ## Assertions -/

/-- A flag is a word that begins with a small letter. -/
structure IsFlag (flag : JsString) : Prop where
  head : flag.head?.any (CodeUnit.inRange 'a' 'z') = true
  word : ∀ u ∈ flag, wordUnit u = true

/-- `flag=true`, with white space around the sign. -/
def assertion (flag ws ws' : JsString) : JsString :=
  flag ++ (ws ++ (lit "=" ++ (ws' ++ lit "true")))

/-- A text asserts that a flag is true. -/
def Asserts (flag text : JsString) : Prop :=
  ∃ pre ws ws' post,
    text = pre ++ (assertion flag ws ws' ++ post) ∧
      (∀ u ∈ ws, space u = true) ∧ (∀ u ∈ ws', space u = true) ∧
      pre.getLast?.any wordUnit = false ∧ post.head?.any wordUnit = false

section Asserts

variable {flag text : JsString}

/-- A flag begins with a small letter. -/
theorem IsFlag.exists_cons (h : IsFlag flag) :
    ∃ f rest, flag = f :: rest ∧ f.inRange 'a' 'z' = true := by
  cases hflag : flag with
  | nil =>
    have hhead := h.head
    rw [hflag] at hhead
    cases hhead
  | cons f rest =>
    have hhead := h.head
    rw [hflag] at hhead
    exact ⟨f, rest, rfl, hhead⟩

/-- A word letter is no white space. -/
theorem not_space_of_wordUnit {u : CodeUnit} (h : wordUnit u = true) : space u = false := by
  simp only [wordUnit, CodeUnit.inRange, CodeUnit.isChar, Bool.or_eq_true, Bool.and_eq_true,
    decide_eq_true_iff, beq_iff_eq, Char.reduceToNat] at h
  simp only [space, isTrimmed, List.contains_eq_mem, List.mem_cons, List.not_mem_nil, or_false,
    Bool.or_eq_false_iff, decide_eq_false_iff_not, Bool.and_eq_false_iff]
  omega

/-- `true` is made of word letters. -/
theorem wordUnit_true : ∀ u ∈ lit "true", wordUnit u = true :=
  List.all_eq_true.mp (by decide +kernel)

/-- A small letter is a word letter. -/
theorem wordUnit_of_inRange {u : CodeUnit} (h : u.inRange 'a' 'z' = true) : wordUnit u = true := by
  simp [wordUnit, h]

/-- A text that asserts a flag is not empty. -/
theorem Asserts.ne_nil (h : Asserts flag text) : text ≠ [] := by
  rintro rfl
  obtain ⟨pre, ws, ws', post, htext, -⟩ := h
  have hmem : (0x3D : CodeUnit) ∈ pre ++ (assertion flag ws ws' ++ post) := by
    rw [assertion, show lit "=" = [0x3D] from rfl]
    simp
  rw [← htext] at hmem
  cases hmem

/-- The pattern matches what asserts the flag. -/
theorem test_flagPattern (hflag : IsFlag flag) (h : Asserts flag text) :
    (flagPattern flag true).test text = true := by
  obtain ⟨pre, ws, ws', post, rfl, hws, hws', hpre, hpost⟩ := h
  obtain ⟨f, rest, hcons, hf⟩ := hflag.exists_cons
  refine Pattern.test_iff.mpr
    ⟨pre, flag ++ (ws ++ (lit "=" ++ (ws' ++ (lit "true" ++ post)))), by simp [assertion], ?_⟩
  have hstart : pre.getLast?.any wordUnit ≠
      (flag ++ (ws ++ (lit "=" ++ (ws' ++ (lit "true" ++ post))))).head?.any wordUnit := by
    rw [hpre, hcons, List.cons_append, List.head?_cons, Option.any_some, wordUnit_of_inRange hf]
    exact Bool.false_ne_true
  -- the word, the white space, the sign, the white space and the value
  refine ⟨_, Pattern.mem_run_seq.mpr ⟨_, Pattern.mem_run_boundary.mpr ⟨hstart, rfl⟩,
    Pattern.mem_run_seq.mpr ⟨_, Pattern.mem_run_word.mpr ⟨_, rfl, rfl⟩,
    Pattern.mem_run_seq.mpr ⟨_, Pattern.mem_run_star_one.mpr ⟨ws, _, rfl, hws, rfl⟩,
    Pattern.mem_run_seq.mpr ⟨_, Pattern.mem_run_word.mpr ⟨_, rfl, rfl⟩,
    Pattern.mem_run_seq.mpr ⟨_, Pattern.mem_run_star_one.mpr ⟨ws', _, rfl, hws', rfl⟩,
    Pattern.mem_run_seq.mpr ⟨_, Pattern.mem_run_word.mpr ⟨post, rfl, rfl⟩,
    Pattern.mem_run_boundary.mpr ⟨?_, rfl⟩⟩⟩⟩⟩⟩⟩⟩
  rw [Cursor.ahead_past, hpost]
  exact Bool.noConfusion

/-! ## Parts of a text -/

/-- What asserts the flag goes on doing so between texts that end and begin outside words. -/
theorem Asserts.append (h : Asserts flag text) {a b : JsString}
    (ha : a.getLast?.any wordUnit = false) (hb : b.head?.any wordUnit = false) :
    Asserts flag (a ++ (text ++ b)) := by
  obtain ⟨pre, ws, ws', post, rfl, hws, hws', hpre, hpost⟩ := h
  refine ⟨a ++ pre, ws, ws', post ++ b, by simp [List.append_assoc], hws, hws', ?_, ?_⟩
  · rw [List.getLast?_append]
    cases hlast : pre.getLast? with
    | none => exact ha
    | some u => rwa [hlast] at hpre
  · rw [List.head?_append]
    cases hhead : post.head? with
    | none => exact hb
    | some u => rwa [hhead] at hpost

/-- Letters that do not begin a flag come off at the start, -/
theorem Asserts.of_append_left (hflag : IsFlag flag) {a b : JsString} (h : Asserts flag (a ++ b))
    (ha : ∀ u ∈ a, u.inRange 'a' 'z' = false) : Asserts flag b := by
  obtain ⟨pre, ws, ws', post, htext, hws, hws', hpre, hpost⟩ := h
  obtain ⟨f, rest, rfl, hf⟩ := hflag.exists_cons
  rcases List.append_eq_append_iff.mp htext with ⟨c, rfl, hb⟩ | ⟨c, rfl, hb⟩
  · refine ⟨c, ws, ws', post, hb, hws, hws', ?_, hpost⟩
    rw [List.getLast?_append] at hpre
    cases hlast : c.getLast? with
    | none => rfl
    | some u => rwa [hlast] at hpre
  · cases c with
    | nil =>
      exact ⟨[], ws, ws', post, hb.symm, hws, hws', rfl, hpost⟩
    | cons u c =>
      -- the flag would begin in what comes off
      obtain rfl : f = u := (List.cons.inj hb).1
      rw [ha f (by simp)] at hf
      cases hf

/-- and white space at the end. -/
theorem Asserts.of_append_right {a b : JsString} (h : Asserts flag (a ++ b))
    (hb : ∀ u ∈ b, space u = true) : Asserts flag a := by
  obtain ⟨pre, ws, ws', post, htext, hws, hws', hpre, hpost⟩ := h
  have hvalue : a ++ b =
      (pre ++ (flag ++ (ws ++ (lit "=" ++ (ws' ++ lit "tru"))))) ++ (lit "e" ++ post) := by
    rw [htext, assertion, show lit "true" = lit "tru" ++ lit "e" from rfl]
    simp only [List.append_assoc]
  rcases List.append_eq_append_iff.mp hvalue with ⟨c, hc, rfl⟩ | ⟨c, rfl, hc⟩
  · have hlast := hb 0x65 (List.mem_append_right c List.mem_cons_self)
    cases hlast
  · cases c with
    | nil =>
      obtain rfl : lit "e" ++ post = b := hc
      cases hb 0x65 List.mem_cons_self
    | cons u c =>
      obtain ⟨rfl, rfl⟩ := List.cons.inj hc
      refine ⟨pre, ws, ws', c, ?_, hws, hws', hpre, ?_⟩
      · rw [assertion, show lit "true" = lit "tru" ++ lit "e" from rfl]
        simp only [List.append_assoc]
        rfl
      · cases c with
        | nil => rfl
        | cons v c => exact hpost

/-- White space comes off on both sides. -/
theorem Asserts.trim (hflag : IsFlag flag) (h : Asserts flag text) : Asserts flag (trim text) := by
  obtain ⟨lead, trail, htext, hlead, htrail, -⟩ := CommonMark.exists_stripBy isTrimmed text
  rw [htext] at h
  refine Asserts.of_append_right (Asserts.of_append_left hflag h fun u hu => ?_) htrail
  by_contra hne
  have hspace := not_space_of_wordUnit (wordUnit_of_inRange (Bool.not_eq_false _ ▸ hne))
  rw [space, hlead u hu] at hspace
  cases hspace

/-! ## White space -/

/-- Runs of white space become spaces. -/
def tidy (inside : Bool) (s : JsString) : JsString := Pattern.collapse space [spaceUnit] inside s

/-- A text is tidied part after part. -/
theorem tidy_append (inside : Bool) (s t : JsString) :
    tidy inside (s ++ t) = tidy inside s ++ tidy (s.getLast?.elim inside space) t :=
  Pattern.collapse_append space [spaceUnit] inside s t

/-- A word is tidy. -/
theorem tidy_of_word {s : JsString} (h : ∀ u ∈ s, wordUnit u = true) (inside : Bool) :
    tidy inside s = s :=
  Pattern.collapse_of_none fun u hu => not_space_of_wordUnit (h u hu)

/-- Tidied white space is white space. -/
theorem space_of_mem_tidy {inside : Bool} {ws : JsString} (h : ∀ u ∈ ws, space u = true) :
    ∀ u ∈ tidy inside ws, space u = true := by
  intro u hu
  rcases Pattern.mem_of_mem_collapse hu with hu | ⟨hu, hnot⟩
  · rw [List.mem_singleton.mp hu]
    decide
  · exact h u hu

/-- White space is no word letter. -/
theorem not_wordUnit_of_space {u : CodeUnit} (h : space u = true) : wordUnit u = false := by
  by_contra hne
  rw [not_space_of_wordUnit (Bool.not_eq_false _ ▸ hne)] at h
  cases h

/-- A text that ends outside a word goes on doing so. -/
theorem getLast?_tidy {inside : Bool} {s : JsString} (h : s.getLast?.any wordUnit = false) :
    (tidy inside s).getLast?.any wordUnit = false := by
  induction s using List.reverseRecOn with
  | nil => rfl
  | append_singleton s u ih =>
    rw [List.getLast?_concat, Option.any_some] at h
    rw [tidy_append, tidy, tidy, Pattern.collapse, Pattern.collapse, List.append_nil]
    split
    next hspace =>
      cases hlast : s.getLast? with
      | none =>
        rw [List.getLast?_eq_none_iff.mp hlast]
        cases inside <;> rfl
      | some v =>
        cases hv : space v with
        | false =>
          rw [Option.elim_some, hv, if_neg Bool.false_ne_true, List.getLast?_concat]
          rfl
        | true =>
          rw [Option.elim_some, hv, if_pos rfl, List.append_nil]
          exact ih (by rw [hlast, Option.any_some, not_wordUnit_of_space hv])
    next =>
      change (_ ++ [u]).getLast?.any wordUnit = false
      rwa [List.getLast?_concat, Option.any_some]

/-- So does one that begins outside a word. -/
theorem head?_tidy {s : JsString} (h : s.head?.any wordUnit = false) :
    (tidy false s).head?.any wordUnit = false := by
  cases s with
  | nil => rfl
  | cons u s =>
    rw [tidy, Pattern.collapse]
    split
    next => rfl
    next => exact h

/-- A text that asserts a flag does so when it is tidied. -/
theorem Asserts.tidy (hflag : IsFlag flag) (h : Asserts flag text) :
    Asserts flag (tidy false text) := by
  obtain ⟨pre, ws, ws', post, rfl, hws, hws', hpre, hpost⟩ := h
  have hlast (inside : Bool) : (assertion flag ws ws').getLast?.elim inside space = false := by
    rw [assertion, ← List.append_assoc, ← List.append_assoc, ← List.append_assoc,
      List.getLast?_append]
    rfl
  have hsign (inside : Bool) : RepositoryBoundary.tidy inside (lit "=") = lit "=" :=
    Pattern.collapse_of_none fun u hu => by
      obtain rfl := List.mem_singleton.mp hu
      rfl
  have hvalue (inside : Bool) : RepositoryBoundary.tidy inside (lit "true") = lit "true" :=
    tidy_of_word wordUnit_true inside
  rw [tidy_append, tidy_append, hlast, assertion, tidy_append, tidy_of_word hflag.word, tidy_append,
    tidy_append, hsign, tidy_append, hvalue]
  exact ⟨_, _, _, _, rfl, space_of_mem_tidy hws, space_of_mem_tidy hws', getLast?_tidy hpre,
    head?_tidy hpost⟩

/-! ## Sentences -/

/-- The four marks that end a sentence. -/
theorem endsSentence_iff {u : CodeUnit} :
    CodeUnit.oneOf ".!?;" u = true ↔
      u.val = 0x2E ∨ u.val = 0x21 ∨ u.val = 0x3F ∨ u.val = 0x3B := by
  have htexts : ".!?;".toList = ['.', '!', '?', ';'] := rfl
  simp [CodeUnit.oneOf, htexts, CodeUnit.isChar]

/-- A word letter ends no sentence. -/
theorem not_endsSentence_of_wordUnit {u : CodeUnit} (h : wordUnit u = true) :
    CodeUnit.oneOf ".!?;" u = false := by
  simp only [wordUnit, CodeUnit.inRange, CodeUnit.isChar, Bool.or_eq_true, Bool.and_eq_true,
    decide_eq_true_iff, beq_iff_eq, Char.reduceToNat] at h
  rw [Bool.eq_false_iff, ne_eq, endsSentence_iff]
  omega

/-- White space ends no sentence. -/
theorem not_endsSentence_of_space {u : CodeUnit} (h : space u = true) :
    CodeUnit.oneOf ".!?;" u = false := by
  simp only [space, isTrimmed, List.contains_eq_mem, List.mem_cons, List.not_mem_nil, or_false,
    Bool.or_eq_true, decide_eq_true_iff, Bool.and_eq_true] at h
  rw [Bool.eq_false_iff, ne_eq, endsSentence_iff]
  omega

/-- An assertion is not cut: no end of a sentence stands before white space in it. -/
theorem uncut_assertion (hflag : IsFlag flag) {ws ws' : JsString}
    (hws : ∀ u ∈ ws, space u = true) (hws' : ∀ u ∈ ws', space u = true) (last : Option CodeUnit) :
    Pattern.Uncut (CodeUnit.oneOf ".!?;") space last (assertion flag ws ws') := by
  have hflagLast : (flag.getLast?.or last).any (CodeUnit.oneOf ".!?;") = false := by
    obtain ⟨f, rest, hcons, -⟩ := hflag.exists_cons
    obtain ⟨u, hu⟩ : ∃ u, flag.getLast? = some u := by
      rw [hcons, List.getLast?_cons]
      exact ⟨_, rfl⟩
    rw [hu, Option.some_or, Option.any_some]
    exact not_endsSentence_of_wordUnit (hflag.word u (List.mem_of_getLast? hu))
  have hspaces {ws : JsString} (hws : ∀ u ∈ ws, space u = true) :
      ∀ u ∈ ws, CodeUnit.oneOf ".!?;" u = false := fun u hu =>
    not_endsSentence_of_space (hws u hu)
  rw [assertion, Pattern.uncut_append, Pattern.uncut_append, Pattern.uncut_append,
    Pattern.uncut_append]
  refine ⟨Pattern.uncut_of_none fun u hu => not_space_of_wordUnit (hflag.word u hu),
    Pattern.uncut_of_run hflagLast (hspaces hws), Pattern.uncut_of_none fun u hu => ?_,
    Pattern.uncut_of_run ?_ (hspaces hws'),
    Pattern.uncut_of_none fun u hu => not_space_of_wordUnit (wordUnit_true u hu)⟩
  · obtain rfl := List.mem_singleton.mp hu
    rfl
  · rfl

/-- One of the sentences asserts what the text does. -/
theorem Asserts.exists_sentence (hflag : IsFlag flag) (h : Asserts flag text) :
    ∃ sentence ∈ sentences text, Asserts flag sentence := by
  obtain ⟨pre, ws, ws', post, rfl, hws, hws', hpre, hpost⟩ := h
  obtain ⟨f, rest, hcons, hf⟩ := hflag.exists_cons
  have hhead : assertion flag ws ws' = f :: (rest ++ (ws ++ (lit "=" ++ (ws' ++ lit "true")))) := by
    rw [assertion, hcons]
    rfl
  obtain ⟨earlier, pre', post', others, hsplit, hpre', hpost', -⟩ :=
    Pattern.exists_mem_splitBehind (q := CodeUnit.oneOf ".!?;") (p := space)
      (t := post) (not_space_of_wordUnit (wordUnit_of_inRange hf))
      (fun last => hhead ▸ uncut_assertion hflag hws hws' last) false none pre
  rw [← hhead] at hsplit
  have hpart : Asserts flag (pre' ++ (assertion flag ws ws' ++ post')) := by
    refine ⟨pre', ws, ws', post', rfl, hws, hws', ?_, ?_⟩
    · rcases hpre' with rfl | hlast
      · rfl
      · rwa [hlast]
    · rcases hpost' with rfl | hfirst
      · rfl
      · rwa [hfirst]
  have htrim := hpart.trim hflag
  refine ⟨_, List.mem_filter.mpr ⟨List.mem_map_of_mem ?_, ?_⟩, htrim⟩
  · rw [sentenceEnd, someSpaces, Pattern.split_behind_plus_one, hsplit]
    simp
  · simpa using htrim.ne_nil

/-! ## Chunks -/

/-- A line of a chunk stands in its text, between spaces. -/
theorem exists_intercalate (sep : CodeUnit) {line : JsString} {chunk : List JsString}
    (h : line ∈ chunk) :
    ∃ a b, [sep].intercalate chunk = a ++ (line ++ b) ∧
      (∀ u ∈ a.getLast?, u = sep) ∧ ∀ u ∈ b.head?, u = sep := by
  induction chunk with
  | nil => cases h
  | cons first chunk ih =>
    rcases List.mem_cons.mp h with rfl | h
    · cases chunk with
      | nil => exact ⟨[], [], by simp [List.intercalate], by simp, by simp⟩
      | cons second chunk =>
        refine ⟨[], sep :: [sep].intercalate (second :: chunk), ?_, by simp, by simp⟩
        rw [List.intercalate_cons_cons]
        simp
    · obtain ⟨a, b, hab, ha, hb⟩ := ih h
      obtain ⟨second, chunk, rfl⟩ := List.exists_cons_of_ne_nil (List.ne_nil_of_mem h)
      refine ⟨first ++ sep :: a, b, ?_, ?_, hb⟩
      · rw [List.intercalate_cons_cons, hab]
        simp
      · intro u hu
        rw [List.getLast?_append, List.getLast?_cons] at hu
        cases hlast : a.getLast? with
        | none => simpa [hlast] using hu.symm
        | some v =>
          rw [hlast] at hu
          exact ha u (by simpa [hlast] using hu)

/-- The text of a chunk asserts what one of its lines does. -/
theorem Asserts.chunkText (hflag : IsFlag flag) {line : JsString} {chunk : List JsString}
    (hline : line ∈ chunk) (h : Asserts flag line) : Asserts flag (chunkText chunk) := by
  obtain ⟨a, b, hab, ha, hb⟩ := exists_intercalate spaceUnit hline
  have hjoined : Asserts flag ([spaceUnit].intercalate chunk) := by
    rw [hab]
    refine h.append ?_ ?_
    · cases hlast : a.getLast? with
      | none => rfl
      | some u =>
        obtain rfl := ha u hlast
        rfl
    · cases hfirst : b.head? with
      | none => rfl
      | some u =>
        obtain rfl := hb u hfirst
        rfl
  rw [RepositoryBoundary.chunkText, someSpaces, Pattern.replaceAll_plus_one]
  exact (hjoined.tidy hflag).trim hflag

/-- A unit below the small letters is none. -/
theorem not_small_of_lt {u : CodeUnit} (h : u.val < 0x61) : u.inRange 'a' 'z' = false := by
  simp only [CodeUnit.inRange, Char.reduceToNat, Bool.and_eq_false_iff, decide_eq_false_iff_not]
  omega

/-- White space is no small letter. -/
theorem not_small_of_space {u : CodeUnit} (h : space u = true) : u.inRange 'a' 'z' = false := by
  by_contra hne
  rw [not_space_of_wordUnit (wordUnit_of_inRange (Bool.not_eq_false _ ▸ hne))] at h
  cases h

/-- The mark of an item is a bullet, or digits and a full stop or a parenthesis. -/
theorem exists_mark {c d : Cursor CodeUnit} (h : d ∈ itemMark.run c) :
    ∃ w rest, c.ahead = w ++ rest ∧ (∀ u ∈ w, u.val < 0x61) ∧ d = c.past w rest := by
  have hbullets : "-*+".toList = ['-', '*', '+'] := rfl
  have hends : ".)".toList = ['.', ')'] := rfl
  rcases Pattern.mem_run_alt.mp h with h | h
  · obtain ⟨u, rest, hahead, hu, rfl⟩ := Pattern.mem_run_one.mp h
    refine ⟨[u], rest, hahead, ?_, rfl⟩
    simp [CodeUnit.oneOf, hbullets, CodeUnit.isChar] at hu
    simp only [List.mem_singleton, forall_eq]
    omega
  · obtain ⟨_, hdigits, hend⟩ := Pattern.mem_run_seq.mp h
    obtain ⟨w, rest, hahead, -, hw, rfl⟩ := Pattern.mem_run_plus_one.mp hdigits
    obtain ⟨u, rest', hrest, hu, rfl⟩ := Pattern.mem_run_one.mp hend
    obtain rfl : rest = u :: rest' := hrest
    refine ⟨w ++ [u], rest', by simpa using hahead, ?_, Cursor.past_past c w [u] rest'⟩
    intro v hv
    rcases List.mem_append.mp hv with hv | hv
    · have hdigit := hw v hv
      simp only [digitClass, CodeUnit.inRange, Char.reduceToNat, Bool.and_eq_true,
        decide_eq_true_iff] at hdigit
      omega
    · obtain rfl := List.mem_singleton.mp hv
      simp [CodeUnit.oneOf, hends, CodeUnit.isChar] at hu
      omega

/-- A line that begins a list item begins without small letters. -/
theorem exists_marker {line : JsString} (h : listMarker.test line = true) :
    ∃ marker, line = marker ++ listMarker.replaceFirst (fun _ => []) line ∧
      ∀ u ∈ marker, u.inRange 'a' 'z' = false := by
  rw [listMarker, Pattern.test, Pattern.exec_start, Option.isSome_map,
    Option.isSome_iff_exists] at h
  obtain ⟨d, hd⟩ := h
  obtain ⟨_, hindent, hmark⟩ := Pattern.mem_run_seq.mp (List.mem_of_head? hd)
  obtain ⟨spaces, rest₁, hline, -, hspaces, rfl⟩ := Pattern.mem_run_upTo_one.mp hindent
  obtain ⟨_, hmark, hbehind⟩ := Pattern.mem_run_seq.mp hmark
  obtain ⟨mark, rest₂, hrest₁, hsmall, rfl⟩ := exists_mark hmark
  obtain ⟨blanks, rest, hrest₂, -, hblanks, rfl⟩ := Pattern.mem_run_plus_one.mp hbehind
  obtain rfl : line = spaces ++ rest₁ := hline
  obtain rfl : rest₁ = mark ++ rest₂ := hrest₁
  obtain rfl : rest₂ = blanks ++ rest := hrest₂
  have hreplaced : listMarker.replaceFirst (fun _ => []) (spaces ++ (mark ++ (blanks ++ rest))) =
      rest := by
    rw [Pattern.replaceFirst, listMarker, Pattern.exec_start, hd]
    change List.drop (0 + spaces.length + mark.length + blanks.length) _ = rest
    rw [show spaces ++ (mark ++ (blanks ++ rest)) = (spaces ++ mark ++ blanks) ++ rest by simp]
    exact List.drop_left' (by simp [Nat.add_assoc])
  refine ⟨spaces ++ (mark ++ blanks), by rw [hreplaced]; simp, fun u hu => ?_⟩
  rcases List.mem_append.mp hu with hu | hu
  · obtain rfl := eq_of_beq (hspaces u hu)
    rfl
  rcases List.mem_append.mp hu with hu | hu
  · exact not_small_of_lt (hsmall u hu)
  · exact not_small_of_space (hblanks u hu)

/-- A chunk holds a line that asserts the flag. -/
def Holds (flag : JsString) (chunks : List (List JsString)) : Prop :=
  ∃ chunk ∈ chunks, ∃ line ∈ chunk, Asserts flag line

/-- A chunk that asserts the flag is still there when a line is added. -/
theorem Holds.addLine {chunks : List (List JsString)} (h : Holds flag chunks) (line : JsString) :
    Holds flag (addLine chunks line) := by
  obtain ⟨chunk, hchunk, held, hheld, hasserts⟩ := h
  rw [RepositoryBoundary.addLine]
  split
  next => exact ⟨chunk, List.mem_append_left _ hchunk, held, hheld, hasserts⟩
  next =>
    cases hlast : chunks.getLast? with
    | none =>
      rw [List.getLast?_eq_none_iff.mp hlast] at hchunk
      cases hchunk
    | some last =>
      rw [← List.dropLast_append_getLast? last hlast, List.mem_append] at hchunk
      rcases hchunk with hchunk | hchunk
      · exact ⟨chunk, List.mem_append_left _ hchunk, held, hheld, hasserts⟩
      · obtain rfl := List.mem_singleton.mp hchunk
        exact ⟨_, List.mem_append_right _ List.mem_cons_self, held, List.mem_append_left _ hheld,
          hasserts⟩

/-- A chunk that asserts the flag is still there when lines are added. -/
theorem Holds.foldl {chunks : List (List JsString)} (h : Holds flag chunks)
    (lines : List JsString) : Holds flag (lines.foldl RepositoryBoundary.addLine chunks) := by
  induction lines generalizing chunks with
  | nil => exact h
  | cons line lines ih => exact ih (h.addLine line)

/-- A line that asserts the flag makes a chunk that does. -/
theorem holds_addLine (hflag : IsFlag flag) {line : JsString} (h : Asserts flag line)
    (chunks : List (List JsString)) : Holds flag (addLine chunks line) := by
  rw [addLine]
  split
  next hmarker =>
    obtain ⟨marker, hline, hletters⟩ := exists_marker hmarker
    rw [hline] at h
    exact ⟨_, List.mem_append_right _ List.mem_cons_self, _, List.mem_cons_self,
      h.of_append_left hflag hletters⟩
  next =>
    cases chunks.getLast? with
    | none => exact ⟨_, List.mem_cons_self, _, List.mem_cons_self, h.trim hflag⟩
    | some last =>
      exact ⟨_, List.mem_append_right _ List.mem_cons_self, _,
        List.mem_append_right _ List.mem_cons_self, h.trim hflag⟩

/-- One of the units of a block asserts what one of its lines does. -/
theorem exists_blockUnit (hflag : IsFlag flag) {line : JsString} {block : List JsString}
    (hline : line ∈ block) (h : Asserts flag line) :
    ∃ unit ∈ blockUnits block, Asserts flag unit := by
  have hholds : Holds flag (block.foldl addLine []) := by
    obtain ⟨before, after, rfl⟩ := List.append_of_mem hline
    rw [List.foldl_append, List.foldl_cons]
    exact (holds_addLine hflag h _).foldl after
  obtain ⟨chunk, hchunk, held, hheld, hasserts⟩ := hholds
  have htext := hasserts.chunkText hflag hheld
  obtain ⟨sentence, hsentence, hunit⟩ := htext.exists_sentence hflag
  refine ⟨sentence, List.mem_flatMap.mpr ⟨chunk, hchunk, ?_⟩, hunit⟩
  rw [if_neg htext.ne_nil]
  exact hsentence

end Asserts

/-! ## Lines -/

section Collecting

variable {flag : JsString}

/-- A unit that was collected or a line of the block asserts the flag. -/
def Collecting.Holds (flag : JsString) (c : Collecting) : Prop :=
  (∃ unit ∈ c.units, Asserts flag unit) ∨ ∃ line ∈ c.block, Asserts flag line

/-- When the block is flushed, a unit asserts the flag. -/
theorem Collecting.Holds.flush (hflag : IsFlag flag) {c : Collecting} (h : c.Holds flag) :
    ∃ unit ∈ c.flush.units, Asserts flag unit := by
  rcases h with ⟨unit, hunit, hasserts⟩ | ⟨line, hline, hasserts⟩
  · exact ⟨unit, List.mem_append_left _ hunit, hasserts⟩
  · obtain ⟨unit, hunit, hasserts⟩ := exists_blockUnit hflag hline hasserts
    exact ⟨unit, List.mem_append_right _ hunit, hasserts⟩

/-- It stays so with each line. -/
theorem Collecting.Holds.collect (hflag : IsFlag flag) {c : Collecting} (h : c.Holds flag)
    (line : JsString) : (collect c line).Holds flag := by
  rw [RepositoryBoundary.collect]
  split
  next => exact .inl (h.flush hflag)
  next =>
    split
    next => exact h
    next =>
      split
      next => exact .inl (h.flush hflag)
      next =>
        refine h.imp_right ?_
        rintro ⟨held, hheld, hasserts⟩
        exact ⟨held, List.mem_append_left _ hheld, hasserts⟩

/-- A flag that is held is still held after more lines. -/
theorem Collecting.Holds.foldl (hflag : IsFlag flag) {c : Collecting} (h : c.Holds flag)
    (lines : List JsString) : (lines.foldl RepositoryBoundary.collect c).Holds flag := by
  induction lines generalizing c with
  | nil => exact h
  | cons line lines ih => exact ih (h.collect hflag line)

/-- The reader is aside as the fences turn him. -/
theorem fenced_foldl_collect (c : Collecting) (lines : List JsString) :
    (lines.foldl collect c).fenced = lines.foldl toggle c.fenced := by
  induction lines generalizing c with
  | nil => rfl
  | cons line lines ih =>
    rw [List.foldl_cons, List.foldl_cons, ih]
    congr 1
    rw [collect, toggle]
    split
    next => rfl
    next =>
      split
      next => rfl
      next => split <;> rfl

/-- What is asserted on a line that is seen, a unit asserts. -/
theorem exists_unit_of_sees (hflag : IsFlag flag) {text line : JsString}
    (hline : line ∈ seenLines (linesOf text)) (h : Asserts flag line) :
    ∃ unit ∈ semanticUnits text, Asserts flag unit := by
  obtain ⟨hfence, before, after, hlines, heven⟩ := mem_seenLines.mp hline
  have hfenced : (before.foldl collect ⟨false, [], []⟩).fenced = false := by
    rw [fenced_foldl_collect]
    exact foldl_toggle_eq_false.mpr (iff_of_true heven rfl)
  have hcollected : (collect (before.foldl collect ⟨false, [], []⟩) line).Holds flag := by
    rw [collect, hfence, hfenced, if_neg Bool.false_ne_true, if_neg Bool.false_ne_true,
      if_neg (h.trim hflag).ne_nil]
    exact .inr ⟨line, List.mem_append_right _ List.mem_cons_self, h⟩
  rw [semanticUnits, hlines, List.foldl_append, List.foldl_cons]
  exact (hcollected.foldl hflag after).flush hflag

end Collecting

/-! ## Findings -/

/-- The flags of the closed stages are flags. -/
theorem isFlag_of_mem {flag : JsString} (h : flag ∈ strongerStageFlags) : IsFlag flag := by
  have hhead : strongerStageFlags.all fun flag =>
      flag.head?.any (CodeUnit.inRange 'a' 'z') && flag.all wordUnit := by decide +kernel
  obtain ⟨hfirst, hword⟩ := Bool.and_eq_true_iff.mp (List.all_eq_true.mp hhead flag h)
  exact ⟨hfirst, List.all_eq_true.mp hword⟩

/-- A line that is no fence, behind an even number of fences, asserts a closed stage. -/
def SeesAssertion (text : JsString) : Prop :=
  ∃ before line after, linesOf text = before ++ line :: after ∧ Even (before.countP isFence) ∧
    isFence line = false ∧ ∃ flag ∈ strongerStageFlags, Asserts flag line

/-- An assertion on a line that is seen is found. -/
theorem exists_stage_of_sees {text : JsString} (h : SeesAssertion text) :
    ∃ unit ∈ semanticUnits text, ∃ flag ∈ strongerStageFlags,
      (flagPattern flag true).test unit = true := by
  obtain ⟨before, line, after, hlines, heven, hfence, flag, hmem, hasserts⟩ := h
  have hflag := isFlag_of_mem hmem
  obtain ⟨unit, hunit, hasserts⟩ := exists_unit_of_sees hflag
    (mem_seenLines.mpr ⟨hfence, before, after, hlines, heven⟩) hasserts
  exact ⟨unit, hunit, flag, hmem, test_flagPattern hflag hasserts⟩

/-- A unit that asserts a closed stage is at fault. -/
theorem stageViolations_ne_nil {unit flag : JsString} (hmem : flag ∈ strongerStageFlags)
    (h : (flagPattern flag true).test unit = true) : stageViolations unit ≠ [] := by
  rw [stageViolations, ne_eq, List.flatMap_eq_nil_iff]
  intro hnil
  exact Versioning.findingIf_eq_nil_iff.mp (hnil flag hmem) h

/-- What a unit asserts is found. -/
theorem readmeContractViolations_ne_nil_of_stage {text : JsString}
    (h : ∃ unit ∈ semanticUnits text, ∃ flag ∈ strongerStageFlags,
      (flagPattern flag true).test unit = true) : readmeContractViolations text ≠ [] := by
  obtain ⟨unit, hunit, flag, hmem, htest⟩ := h
  rw [readmeContractViolations]
  intro hnil
  have hunits := List.flatMap_eq_nil_iff.mp (List.append_eq_nil_iff.mp hnil).2 unit hunit
  exact stageViolations_ne_nil hmem htest (List.append_eq_nil_iff.mp hunits).1

/-- There is a finding when a line that is seen asserts a closed stage. -/
theorem readmeContractViolations_ne_nil_of_sees (text : JsString) (h : SeesAssertion text) :
    readmeContractViolations text ≠ [] :=
  readmeContractViolations_ne_nil_of_stage (exists_stage_of_sees h)

/-- An assertion in a list, behind a block of code, is found. -/
theorem readmeContractViolations_ne_nil_of_sees_sample :
    readmeContractViolations (joinLines [lit "# Kernel", lit "```", lit "kernelReady=true",
      lit "```", lit "> quoted", lit "- today kernelReady = true, they say"]) ≠ [] :=
  readmeContractViolations_ne_nil_of_sees _
    ⟨[lit "# Kernel", lit "```", lit "kernelReady=true", lit "```", lit "> quoted"],
      lit "- today kernelReady = true, they say", [], by decide +kernel, by decide +kernel,
      by decide +kernel, lit "kernelReady", by decide +kernel, lit "- today ", [spaceUnit],
      [spaceUnit], lit ", they say", by decide +kernel, List.all_eq_true.mp (by decide +kernel),
      List.all_eq_true.mp (by decide +kernel), by decide +kernel, by decide +kernel⟩

/-! ## Assertions of CommonMark -/

/-- A line in no fenced block asserts a closed stage. -/
def HasAssertion (text : JsString) : Prop :=
  ∃ line ∈ CommonMark.outsideFences (CommonMark.lines text), ∃ flag ∈ strongerStageFlags,
    Asserts flag line

/-- An assertion behind a fence of tildes in a block of back-ticks. -/
def hiddenAssertion : JsString :=
  joinLines <|
    [lit "## Current status", [], lit "GO-KERNEL-DEVELOPMENT-ONLY",
      lit "kernel-runtime-substrate-s1-activated"] ++
    (currentStatusFlags.map fun p => p.1 ++ lit "=" ++ booleanText p.2) ++
    [[], lit "## Historical, non-effective bootstrap", [], lit "PLANNING_ONLY VALID_BLOCKED NO_GO",
      [], lit "```", lit "~~~", lit "```", [], lit "kernelReady=true", []]

/-- Nothing is found there. -/
theorem readmeContractViolations_hiddenAssertion :
    ¬∀ text, HasAssertion text → readmeContractViolations text ≠ [] := by
  intro h
  refine h hiddenAssertion ⟨lit "kernelReady=true", by decide +kernel, lit "kernelReady",
    by decide +kernel, [], [], [], [], by decide +kernel, by simp, by simp, rfl, rfl⟩ ?_
  decide +kernel

/-- In a text without carriage returns whose fences are paired no assertion goes by unseen. -/
theorem readmeContractViolations_ne_nil_of_paired {text : JsString} (h : HasAssertion text)
    (hcr : CommonMark.cr ∉ text) (hpaired : Paired none (linesOf text)) :
    readmeContractViolations text ≠ [] := by
  obtain ⟨line, hline, flag, hflag, hasserts⟩ := h
  obtain ⟨hfence, before, after, hlines, heven⟩ :=
    mem_seenLines.mp (mem_seenLines_of_outside hcr hpaired hline)
  exact readmeContractViolations_ne_nil_of_stage
    (exists_stage_of_sees ⟨before, line, after, hlines, heven, hfence, flag, hflag, hasserts⟩)

end MetaframerKernel.RepositoryBoundary
