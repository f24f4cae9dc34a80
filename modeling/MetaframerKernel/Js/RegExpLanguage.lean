import MetaframerKernel.Js.RegExp
import Mathlib.Computability.Language

/-!
# The languages of patterns

A pattern that neither captures nor looks around matches the words of a language, wherever they
stand. All matches of a text are the matches at the places that no earlier match covers.

## Main definitions

* `Reads`: the matches of a pattern are the words of a language.

## Main results

* `Reads.seq`, `Reads.alt`, `Reads.opt`: the operations on patterns are those on languages;
* `mem_matchAll_or_reaches`: a match at a place is among all matches, or an earlier one reaches over
  the place.
-/

namespace RegExp

/-- A place, with a further capture. -/
def Cursor.capture {α : Type*} (c : Cursor α) (n : ℕ) (w : List α) : Cursor α :=
  { c with groups := (n, w) :: c.groups }

/-- Capturing reads nothing. -/
@[simp] theorem Cursor.ahead_capture {α : Type*} (c : Cursor α) (n : ℕ) (w : List α) :
    (c.capture n w).ahead = c.ahead := rfl

/-- A capture is the latest group. -/
@[simp] theorem Cursor.groups_capture {α : Type*} (c : Cursor α) (n : ℕ) (w : List α) :
    (c.capture n w).groups = (n, w) :: c.groups := rfl

namespace Pattern

variable {α : Type*} [BEq α] {r s : Pattern α} {p : α → Bool} {L M : Language α}

/-! ## Languages -/

/-- The words of a class of letters. -/
def wordsOf (p : α → Bool) : Language α := {w : List α | ∀ a ∈ w, p a = true}

/-- The words of a class of letters that have one. -/
def someOf (p : α → Bool) : Language α := {w : List α | w ≠ [] ∧ ∀ a ∈ w, p a = true}

/-- The letters of a class. -/
def letterOf (p : α → Bool) : Language α := {w : List α | ∃ a, w = [a] ∧ p a = true}

/-- The matches of a pattern are the words of a language, whatever stands around them. -/
def Reads (r : Pattern α) (L : Language α) : Prop :=
  ∀ c d : Cursor α, d ∈ r.run c ↔ ∃ w ∈ L, ∃ rest, c.ahead = w ++ rest ∧ d = c.past w rest

/-- The empty pattern reads the empty word. -/
theorem reads_empty : Reads (empty : Pattern α) 1 := by
  intro c d
  rw [run_empty, List.mem_singleton]
  constructor
  · intro hd
    exact ⟨[], rfl, c.ahead, rfl, hd⟩
  · rintro ⟨w, hw, rest, h, rfl⟩
    obtain rfl := (Language.mem_one w).mp hw
    obtain rfl : c.ahead = rest := h
    rfl

/-- A class reads its letters. -/
theorem reads_one : Reads (one p) (letterOf p) := by
  intro c d
  rw [mem_run_one]
  constructor
  · rintro ⟨a, rest, h, hp, hd⟩
    exact ⟨[a], ⟨a, rfl, hp⟩, rest, h, hd⟩
  · rintro ⟨w, ⟨a, rfl, hp⟩, rest, h, hd⟩
    exact ⟨a, rest, h, hp, hd⟩

/-- A repeated class reads the words of its letters. -/
theorem reads_star_one (greedy : Bool) : Reads (star greedy (one p)) (wordsOf p) := by
  intro c d
  rw [mem_run_star_one]
  constructor
  · rintro ⟨w, rest, h, hw, hd⟩
    exact ⟨w, hw, rest, h, hd⟩
  · rintro ⟨w, hw, rest, h, hd⟩
    exact ⟨w, rest, h, hw, hd⟩

/-- A class repeated at least once reads the words of its letters that are not empty. -/
theorem reads_plus_one : Reads (plus (one p)) (someOf p) := by
  intro c d
  rw [mem_run_plus_one]
  constructor
  · rintro ⟨w, rest, h, hne, hw, hd⟩
    exact ⟨w, ⟨hne, hw⟩, rest, h, hd⟩
  · rintro ⟨w, ⟨hne, hw⟩, rest, h, hd⟩
    exact ⟨w, rest, h, hne, hw, hd⟩

/-- A literal reads itself. -/
theorem reads_word [LawfulBEq α] (v : List α) : Reads (word v) {v} := by
  intro c d
  rw [mem_run_word]
  constructor
  · rintro ⟨rest, h, hd⟩
    exact ⟨v, rfl, rest, h, hd⟩
  · rintro ⟨w, rfl, rest, h, hd⟩
    exact ⟨rest, h, hd⟩

/-- A sequence reads the words of one pattern before those of the other. -/
theorem Reads.seq (hr : Reads r L) (hs : Reads s M) : Reads (seq r s) (L * M) := by
  intro c d
  rw [mem_run_seq]
  constructor
  · rintro ⟨e, he, hd⟩
    obtain ⟨v, hv, between, h, rfl⟩ := (hr c e).mp he
    obtain ⟨w, hw, rest, hrest, rfl⟩ := (hs _ d).mp hd
    obtain rfl : between = w ++ rest := hrest
    refine ⟨v ++ w, Language.mem_mul.mpr ⟨v, hv, w, hw, rfl⟩, rest, ?_, ?_⟩
    · rw [h, List.append_assoc]
    · exact Cursor.past_past c v w rest
  · rintro ⟨u, hu, rest, h, rfl⟩
    obtain ⟨v, hv, w, hw, rfl⟩ := Language.mem_mul.mp hu
    rw [List.append_assoc] at h
    refine ⟨c.past v (w ++ rest), (hr c _).mpr ⟨v, hv, w ++ rest, h, rfl⟩,
      (hs _ _).mpr ⟨w, hw, rest, rfl, ?_⟩⟩
    exact (Cursor.past_past c v w rest).symm

/-- A choice reads the words of either pattern. -/
theorem Reads.alt (hr : Reads r L) (hs : Reads s M) : Reads (alt r s) (L + M) := by
  intro c d
  rw [mem_run_alt, hr c d, hs c d]
  constructor
  · rintro (⟨w, hw, hd⟩ | ⟨w, hw, hd⟩)
    · exact ⟨w, (Language.mem_add L M w).mpr (.inl hw), hd⟩
    · exact ⟨w, (Language.mem_add L M w).mpr (.inr hw), hd⟩
  · rintro ⟨w, hw, hd⟩
    exact ((Language.mem_add L M w).mp hw).imp (fun hw => ⟨w, hw, hd⟩) fun hw => ⟨w, hw, hd⟩

/-- An optional pattern reads its words, or nothing. -/
theorem Reads.opt (hr : Reads r L) : Reads (opt r) (L + 1) := hr.alt reads_empty

/-! ## Captures -/

/-- A group captures the word that is matched. -/
theorem Reads.mem_run_group (hr : Reads r L) {n : ℕ} {c d : Cursor α} :
    d ∈ (group n r).run c ↔
      ∃ w ∈ L, ∃ rest, c.ahead = w ++ rest ∧ d = (c.past w rest).capture n w := by
  rw [Pattern.mem_run_group]
  constructor
  · rintro ⟨e, he, rfl⟩
    obtain ⟨w, hw, rest, h, rfl⟩ := (hr c e).mp he
    refine ⟨w, hw, rest, h, ?_⟩
    rw [Cursor.upTo_past h]
    rfl
  · rintro ⟨w, hw, rest, h, rfl⟩
    refine ⟨c.past w rest, (hr c _).mpr ⟨w, hw, rest, h, rfl⟩, ?_⟩
    rw [Cursor.upTo_past h]
    rfl

/-- A group that captured a letter matches the letter. -/
theorem mem_run_back [LawfulBEq α] {n : ℕ} {a : α} {c d : Cursor α}
    (h : c.groups.lookup n = some [a]) :
    d ∈ (back n).run c ↔ ∃ rest, c.ahead = a :: rest ∧ d = c.past [a] rest := by
  have hrun : (back n).run c = (word [a]).run c := by
    rw [run_word_cons, run_seq, run_one, run, h, Option.getD_some, follow]
    cases c.ahead with
    | nil => rfl
    | cons b rest =>
      dsimp only
      by_cases hb : (b == a) = true
      · rw [if_pos hb, if_pos hb, List.flatMap_singleton]
        rfl
      · rw [if_neg hb, if_neg hb, List.flatMap_nil]
  rw [hrun, mem_run_word]
  rfl

/-! ## All matches -/

/-- The place has a match, and each match there is as wanted: so is the one that is taken. -/
theorem exists_matchAt {P : Cursor α → Prop} {pos : ℕ} {last : Option α} {ahead : List α}
    {d : Cursor α} (hd : d ∈ r.run ⟨pos, last, ahead, []⟩)
    (h : ∀ e ∈ r.run ⟨pos, last, ahead, []⟩, P e) :
    ∃ m, r.matchAt pos last ahead = some m ∧ m.index = pos ∧ P m.last := by
  obtain ⟨e, es, hrun⟩ := List.exists_cons_of_ne_nil (List.ne_nil_of_mem hd)
  refine ⟨⟨⟨pos, last, ahead, []⟩, e⟩, ?_, rfl, h e ?_⟩
  · rw [matchAt, hrun]
    rfl
  · rw [hrun]
    exact List.mem_cons_self

/-- A match that starts before a place and reaches over it. -/
structure Reaches (r : Pattern α) (v w ahead : List α) (m : Match α) : Prop where
  ne_nil : w ≠ []
  matched : r.matchAt v.length v.getLast? (w ++ ahead) = some m
  beyond : v.length + w.length < m.stop

omit [BEq α] in
/-- A text is cut at one of its places. -/
theorem exists_cut {before v w : List α} (h : before = v ++ w) (hw : w ≠ []) :
    ∃ n < before.length, v = before.take n ∧ w = before.drop n := by
  have hpos : 0 < w.length := List.length_pos_iff.mpr hw
  refine ⟨v.length, ?_, ?_, ?_⟩
  · rw [h, List.length_append]
    omega
  · rw [h, List.take_left]
  · rw [h, List.drop_left]

/-- A match starts at its place. -/
theorem index_of_matchAt {pos : ℕ} {last : Option α} {ahead : List α} {m : Match α}
    (h : r.matchAt pos last ahead = some m) : m.index = pos := by
  obtain ⟨d, -, rfl⟩ := Option.map_eq_some_iff.mp h
  rfl

/-- A match at a place is among all matches, or one of them that starts earlier reaches over the
place. -/
theorem mem_matchAll_or_reaches {before ahead : List α} {m : Match α}
    (hm : r.matchAt before.length before.getLast? ahead = some m) :
    m ∈ r.matchAll (before ++ ahead) ∨
      ∃ v w first, before = v ++ w ∧ r.Reaches v w ahead first ∧
        first ∈ r.matchAll (before ++ ahead) := by
  -- the letters that the last match still covers end before the place
  have hgeneral (w : List α) : ∀ (v : List α) (covered : ℕ), before = v ++ w → covered ≤ w.length →
      Piece.found m ∈ r.pieces covered v.length v.getLast? (w ++ ahead) ∨
        ∃ v' w' first, before = v' ++ w' ∧ r.Reaches v' w' ahead first ∧
          Piece.found first ∈ r.pieces covered v.length v.getLast? (w ++ ahead) := by
    induction w with
    | nil =>
      intro v covered hbefore hcovered
      obtain rfl := Nat.le_zero.mp hcovered
      rw [List.append_nil] at hbefore
      subst hbefore
      rw [List.nil_append]
      left
      cases ahead with
      | nil => simp [pieces_nil, hm]
      | cons a rest =>
        rw [pieces, hm]
        dsimp only
        split <;> exact List.mem_cons_self
    | cons a w ih =>
      intro v covered hbefore hcovered
      have hstep (covered : ℕ) (h : covered ≤ w.length) :
          Piece.found m ∈ r.pieces covered (v.length + 1) (some a) (w ++ ahead) ∨
            ∃ v' w' first, before = v' ++ w' ∧ r.Reaches v' w' ahead first ∧
              Piece.found first ∈ r.pieces covered (v.length + 1) (some a) (w ++ ahead) := by
        have hnext := ih (v ++ [a]) covered (by rw [hbefore, List.append_assoc]; rfl) h
        rwa [List.length_append, List.getLast?_concat] at hnext
      -- what is found further on is found from here
      have hlater {covered covered' : ℕ} (h : covered ≤ w.length)
          (hsub : ∀ p ∈ r.pieces covered (v.length + 1) (some a) (w ++ ahead),
            p ∈ r.pieces covered' v.length v.getLast? (a :: w ++ ahead)) :
          Piece.found m ∈ r.pieces covered' v.length v.getLast? (a :: w ++ ahead) ∨
            ∃ v' w' first, before = v' ++ w' ∧ r.Reaches v' w' ahead first ∧
              Piece.found first ∈ r.pieces covered' v.length v.getLast? (a :: w ++ ahead) := by
        refine (hstep covered h).imp (hsub _) ?_
        rintro ⟨v', w', first, hsplit, hreaches, hfound⟩
        exact ⟨v', w', first, hsplit, hreaches, hsub _ hfound⟩
      cases covered with
      | succ covered => exact hlater (Nat.le_of_succ_le_succ hcovered) fun p hp => hp
      | zero =>
        cases hfirst : r.matchAt v.length v.getLast? (a :: (w ++ ahead)) with
        | none =>
          refine hlater (Nat.zero_le _) fun p hp => ?_
          rw [List.cons_append, pieces, hfirst]
          exact List.mem_cons_of_mem _ hp
        | some first =>
          have hindex := index_of_matchAt hfirst
          have hmem : Piece.found first ∈ r.pieces 0 v.length v.getLast? (a :: w ++ ahead) := by
            rw [List.cons_append, pieces, hfirst]
            dsimp only
            split <;> exact List.mem_cons_self
          by_cases hover : v.length + (a :: w).length < first.stop
          · exact .inr ⟨v, a :: w, first, hbefore, ⟨List.cons_ne_nil _ _, hfirst, hover⟩, hmem⟩
          · rw [List.length_cons] at hover
            have hremains : first.stop - first.index - 1 ≤ w.length := by omega
            refine hlater hremains fun p hp => ?_
            rw [List.cons_append, pieces, hfirst]
            dsimp only
            split
            next hzero =>
              rw [hzero] at hp
              exact List.mem_cons_of_mem _ (List.mem_cons_of_mem _ hp)
            next covered hcovers =>
              rw [hcovers] at hp
              exact List.mem_cons_of_mem _ hp
  have hfound {first : Match α} (h : Piece.found first ∈ r.pieces 0 0 none (before ++ ahead)) :
      first ∈ r.matchAll (before ++ ahead) := List.mem_filterMap.mpr ⟨_, h, rfl⟩
  refine (hgeneral before [] 0 rfl (Nat.zero_le _)).imp hfound ?_
  rintro ⟨v, w, first, hsplit, hreaches, hmem⟩
  exact ⟨v, w, first, hsplit, hreaches, hfound hmem⟩

end Pattern

end RegExp
