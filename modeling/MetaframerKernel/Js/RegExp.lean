import Mathlib.Data.List.Basic
import Mathlib.Tactic

/-!
# Regular expressions

The patterns of ECMAScript regular expressions over any letters, and the backtracking matcher: the
ends of the matches from a place in the text, in the order in which the matcher tries them. Case is
ignored by the classes a pattern is made of, and no group stands under a quantifier or in a
look-around, so that a capture is made once.

## Main definitions

* `Pattern`: patterns; `Cursor`: a place in a text, with what was captured on the way to it;
* `run`: the ends of the matches of a pattern from a place;
* `exec`, `test`, `matchAll`, `replaceFirst`, `replaceAll`, `split`: the methods;
* `collapse`, `splitBehind`: a text with the runs of a class replaced by a word, and a text cut at
  them.

## Main results

* `mem_run_star_one`, `findSome?_star_greedy`, `findSome?_star_lazy`: what a repeated class matches,
  and what it tries first;
* `test_iff`: a text is matched when a match starts somewhere;
* `splitBehind_of_uncut`: a text that is not cut begins the first word.
-/

namespace RegExp

variable {α : Type*}

/-- A pattern. -/
inductive Pattern (α : Type*) where
  /-- Nothing -/
  | empty
  /-- A class of letters -/
  | one (p : α → Bool)
  /-- `rs` -/
  | seq (r s : Pattern α)
  /-- `r|s` -/
  | alt (r s : Pattern α)
  /-- `r*`, or `r*?` when not greedy -/
  | star (greedy : Bool) (r : Pattern α)
  /-- `(r)`, with its number -/
  | group (n : ℕ) (r : Pattern α)
  /-- `\n` -/
  | back (n : ℕ)
  /-- `^` -/
  | start
  /-- `$` -/
  | finish
  /-- `\b`, for the letters of words -/
  | boundary (word : α → Bool)
  /-- `(?=r)`, or `(?!r)` when not wanted -/
  | ahead (wanted : Bool) (r : Pattern α)
  /-- `(?<=[p])`, or `(?<![p])` when not wanted -/
  | behind (wanted : Bool) (p : α → Bool)

namespace Pattern

/-- `r?` -/
def opt (r : Pattern α) : Pattern α := alt r empty

/-- `r+` -/
def plus (r : Pattern α) : Pattern α := seq r (star true r)

/-- `r{0,n}` -/
def upTo (r : Pattern α) : ℕ → Pattern α
  | 0 => empty
  | n + 1 => opt (seq r (upTo r n))

/-- `r{n}` -/
def times (r : Pattern α) : ℕ → Pattern α
  | 0 => empty
  | n + 1 => seq r (times r n)

/-- The patterns one after another. -/
def all : List (Pattern α) → Pattern α
  | [] => empty
  | r :: rs => seq r (all rs)

/-- One of the patterns, the first that matches. -/
def any (r : Pattern α) : List (Pattern α) → Pattern α
  | [] => r
  | s :: rs => alt r (any s rs)

/-- The letters of a word. -/
def word [BEq α] (w : List α) : Pattern α := all (w.map fun a => one (· == a))

end Pattern

/-- A place in a text. -/
structure Cursor (α : Type*) where
  /-- The letters before it -/
  pos : ℕ
  /-- The letter before it -/
  last : Option α
  /-- The letters after it -/
  ahead : List α
  /-- What the groups captured, the latest first -/
  groups : List (ℕ × List α)

namespace Cursor

/-- The place after the next letter. -/
def next (c : Cursor α) (a : α) (rest : List α) : Cursor α := ⟨c.pos + 1, some a, rest, c.groups⟩

/-- The place after a word. -/
def past (c : Cursor α) (w rest : List α) : Cursor α :=
  ⟨c.pos + w.length, w.getLast?.or c.last, rest, c.groups⟩

/-- The letters from one place to a later one. -/
def upTo (c d : Cursor α) : List α := c.ahead.take (d.pos - c.pos)

/-- One letter further on, the rest is ahead. -/
@[simp] theorem ahead_next (c : Cursor α) (a : α) (rest : List α) :
    (c.next a rest).ahead = rest := rfl

/-- Past a stretch, what follows it is ahead. -/
@[simp] theorem ahead_past (c : Cursor α) (w rest : List α) : (c.past w rest).ahead = rest := rfl

/-- Passing a stretch captures nothing. -/
@[simp] theorem groups_past (c : Cursor α) (w rest : List α) :
    (c.past w rest).groups = c.groups := rfl

/-- Past a stretch, its last letter has been read last. -/
@[simp] theorem last_past (c : Cursor α) (w rest : List α) :
    (c.past w rest).last = w.getLast?.or c.last := rfl

/-- Passing a stretch moves the position by its length. -/
@[simp] theorem pos_past (c : Cursor α) (w rest : List α) :
    (c.past w rest).pos = c.pos + w.length := rfl

/-- Passing no letters leaves the cursor where it is. -/
@[simp] theorem past_nil (c : Cursor α) : c.past [] c.ahead = c := rfl

/-- Passing a letter and then a stretch is passing both. -/
theorem past_next (c : Cursor α) (a : α) (w rest : List α) :
    (c.next a (w ++ rest)).past w rest = c.past (a :: w) rest := by
  cases w with
  | nil => rfl
  | cons b w =>
    have hpos : c.pos + 1 + (w.length + 1) = c.pos + (w.length + 1 + 1) := by omega
    simp [next, past, hpos, List.getLast?_cons]

/-- Two stretches passed in turn are passed as one. -/
theorem past_past (c : Cursor α) (v w rest : List α) :
    (c.past v (w ++ rest)).past w rest = c.past (v ++ w) rest := by
  simp [past, Nat.add_assoc, List.getLast?_append, Option.or_assoc]

/-- What was read up to the end of a stretch is the stretch. -/
theorem upTo_past {c : Cursor α} {w rest : List α} (h : c.ahead = w ++ rest) :
    c.upTo (c.past w rest) = w := by
  simp [upTo, h]

end Cursor

/-! ## The matcher -/

/-- Repeats a step, as long as it moves on. -/
def iterate (greedy : Bool) (step : Cursor α → List (Cursor α)) :
    List α → Cursor α → List (Cursor α)
  | [], c => [c]
  | _ :: fuel, c =>
      let further := (step c).flatMap fun d =>
        if c.pos < d.pos then iterate greedy step fuel d else []
      if greedy then further ++ [c] else c :: further

/-- The text goes on with a word. -/
def follow [BEq α] (c : Cursor α) : List α → List (Cursor α)
  | [] => [c]
  | a :: w =>
      match c.ahead with
      | [] => []
      | b :: rest => if b == a then follow (c.next b rest) w else []

/-- The ends of the matches from a place, in the order in which they are tried. -/
def Pattern.run [BEq α] : Pattern α → Cursor α → List (Cursor α)
  | .empty, c => [c]
  | .one p, c =>
      match c.ahead with
      | [] => []
      | a :: rest => if p a then [c.next a rest] else []
  | .seq r s, c => (r.run c).flatMap s.run
  -- the ways of the left side are tried before those of the right
  | .alt r s, c => r.run c ++ s.run c
  | .star greedy r, c => iterate greedy r.run c.ahead c
  | .group n r, c => (r.run c).map fun d => { d with groups := (n, c.upTo d) :: d.groups }
  -- a group that has taken part in no match yet is followed by nothing
  | .back n, c => follow c ((c.groups.lookup n).getD [])
  | .start, c => if c.pos = 0 then [c] else []
  | .finish, c => if c.ahead.isEmpty then [c] else []
  | .boundary word, c => if c.last.any word != c.ahead.head?.any word then [c] else []
  | .ahead wanted r, c => if (r.run c).isEmpty != wanted then [c] else []
  | .behind wanted p, c => if c.last.any p == wanted then [c] else []

/-! ## The methods -/

/-- A match: where it starts and where it ends. -/
structure Match (α : Type*) where
  first : Cursor α
  last : Cursor α

namespace Match

/-- `match.index` -/
def index (m : Match α) : ℕ := m.first.pos

/-- `match[0]` -/
def text (m : Match α) : List α := m.first.upTo m.last

/-- The index after the match. -/
def stop (m : Match α) : ℕ := m.last.pos

/-- `match[n]` -/
def group (m : Match α) (n : ℕ) : Option (List α) := m.last.groups.lookup n

end Match

namespace Pattern

variable [BEq α]

/-- The match at one place. -/
def matchAt (r : Pattern α) (pos : ℕ) (last : Option α) (ahead : List α) : Option (Match α) :=
  (r.run ⟨pos, last, ahead, []⟩).head?.map (Match.mk ⟨pos, last, ahead, []⟩)

/-- The first match from a place on. -/
def search (r : Pattern α) (pos : ℕ) (last : Option α) : List α → Option (Match α)
  | [] => r.matchAt pos last []
  | a :: rest => (r.matchAt pos last (a :: rest)).or (r.search (pos + 1) (some a) rest)

/-- `r.exec(s)` -/
def exec (r : Pattern α) (s : List α) : Option (Match α) := r.search 0 none s

/-- `r.test(s)` -/
def test (r : Pattern α) (s : List α) : Bool := (r.exec s).isSome

/-- A part of a text: a letter that no match covers, or a match. -/
inductive Piece (α : Type*) where
  | letter (a : α)
  | found (m : Match α)

/-- The text in parts, after so many letters that the last match covers. -/
def pieces (r : Pattern α) : ℕ → ℕ → Option α → List α → List (Piece α)
  | covered + 1, pos, _, a :: rest => r.pieces covered (pos + 1) (some a) rest
  | _, pos, last, [] => ((r.matchAt pos last []).map Piece.found).toList
  | 0, pos, last, a :: rest =>
      match r.matchAt pos last (a :: rest) with
      | none => .letter a :: r.pieces 0 (pos + 1) (some a) rest
      | some m =>
          match m.stop - m.index with
          -- an empty match is replaced where it is, and the letter behind it stays
          | 0 => .found m :: .letter a :: r.pieces 0 (pos + 1) (some a) rest
          | covered + 1 => .found m :: r.pieces covered (pos + 1) (some a) rest

/-- `s.matchAll(r)` -/
def matchAll (r : Pattern α) (s : List α) : List (Match α) :=
  (r.pieces 0 0 none s).filterMap fun
    | .letter _ => none
    | .found m => some m

/-- `s.replace(r, by)`, for a pattern that is not global. -/
def replaceFirst (r : Pattern α) (substitute : Match α → List α) (s : List α) : List α :=
  match r.exec s with
  | none => s
  | some m => s.take m.index ++ substitute m ++ s.drop m.stop

/-- `s.replace(r, by)`, for a global pattern. -/
def replaceAll (r : Pattern α) (substitute : Match α → List α) (s : List α) : List α :=
  (r.pieces 0 0 none s).flatMap fun
    | .letter a => [a]
    | .found m => substitute m

/-- The words between the matches. -/
def words : List (Piece α) → List (List α)
  | [] => [[]]
  | .letter a :: rest => (words rest).modifyHead (a :: ·)
  | .found _ :: rest => [] :: words rest

/-- `s.split(r)`, for a pattern that matches no empty text. -/
def split (r : Pattern α) (s : List α) : List (List α) := words (r.pieces 0 0 none s)

end Pattern

/-! ## What is matched -/

namespace Pattern

variable [BEq α] {r s : Pattern α} {p : α → Bool} {c d : Cursor α} {w rest : List α}

/-- The empty pattern ends where it begins. -/
@[simp] theorem run_empty (c : Cursor α) : empty.run c = [c] := rfl

/-- A class takes the letter ahead, if it is one of its own. -/
theorem run_one (p : α → Bool) (c : Cursor α) :
    (one p).run c = match c.ahead with
      | [] => []
      | a :: rest => if p a then [c.next a rest] else [] := rfl

/-- The second pattern begins wherever the first one ends. -/
theorem run_seq (r s : Pattern α) (c : Cursor α) :
    (seq r s).run c = (r.run c).flatMap s.run := rfl

/-- One repetition comes before any number of them. -/
theorem run_plus (r : Pattern α) (c : Cursor α) :
    (plus r).run c = (r.run c).flatMap (star true r).run := rfl

/-- A repetition takes no more steps than there are letters ahead. -/
theorem run_star (greedy : Bool) (r : Pattern α) (c : Cursor α) :
    (star greedy r).run c = iterate greedy r.run c.ahead c := rfl

/-- A group records what its pattern has read. -/
theorem run_group (n : ℕ) (r : Pattern α) (c : Cursor α) :
    (group n r).run c =
      (r.run c).map fun d => { d with groups := (n, c.upTo d) :: d.groups } := rfl

/-- `^` holds at the beginning only. -/
theorem run_start (c : Cursor α) : start.run c = if c.pos = 0 then [c] else [] := rfl

/-- `$` holds at the end only. -/
theorem run_finish (c : Cursor α) : finish.run c = if c.ahead.isEmpty then [c] else [] := rfl

/-- A lookbehind looks at the last letter and reads nothing. -/
theorem run_behind (wanted : Bool) (p : α → Bool) (c : Cursor α) :
    (behind wanted p).run c = if c.last.any p == wanted then [c] else [] := rfl

/-- `\b` holds between a word letter and another, or none. -/
theorem run_boundary (word : α → Bool) (c : Cursor α) :
    (boundary word).run c =
      if c.last.any word != c.ahead.head?.any word then [c] else [] := rfl

/-- No repetition reads nothing. -/
theorem run_upTo_zero (r : Pattern α) (c : Cursor α) : (upTo r 0).run c = [c] := rfl

/-- With one more repetition allowed, it is tried first. -/
theorem run_upTo_succ (r : Pattern α) (n : ℕ) (c : Cursor α) :
    (upTo r (n + 1)).run c = (seq r (upTo r n)).run c ++ [c] := rfl

/-- A literal without letters reads nothing. -/
theorem run_word_nil (c : Cursor α) : (word ([] : List α)).run c = [c] := rfl

/-- A literal reads its letters one by one. -/
theorem run_word_cons (a : α) (v : List α) (c : Cursor α) :
    (word (a :: v)).run c = (seq (one (· == a)) (word v)).run c := rfl

omit [BEq α] in
/-- One more step goes on where the position has moved, before or after stopping here. -/
theorem iterate_cons (greedy : Bool) (step : Cursor α → List (Cursor α)) (a : α) (fuel : List α)
    (c : Cursor α) :
    iterate greedy step (a :: fuel) c =
      if greedy then
        ((step c).flatMap fun d => if c.pos < d.pos then iterate greedy step fuel d else []) ++ [c]
      else
        c :: (step c).flatMap fun d => if c.pos < d.pos then iterate greedy step fuel d else [] :=
  rfl

/-- A sequence ends where the second pattern does, from an end of the first. -/
theorem mem_run_seq : d ∈ (seq r s).run c ↔ ∃ e ∈ r.run c, d ∈ s.run e := List.mem_flatMap

/-- A choice ends where either pattern does. -/
theorem mem_run_alt : d ∈ (alt r s).run c ↔ d ∈ r.run c ∨ d ∈ s.run c := List.mem_append

/-- A class ends past one letter of its own. -/
theorem mem_run_one :
    d ∈ (one p).run c ↔ ∃ a rest, c.ahead = a :: rest ∧ p a = true ∧ d = c.past [a] rest := by
  rw [run_one]
  cases c.ahead with
  | nil => simp
  | cons a rest =>
    by_cases hp : p a = true
    · simp only [hp, if_pos, List.mem_singleton]
      refine ⟨fun h => ⟨a, rest, rfl, hp, h⟩, ?_⟩
      rintro ⟨b, rest', heq, -, h⟩
      obtain ⟨rfl, rfl⟩ := List.cons.inj heq
      exact h
    · simp only [hp, Bool.false_eq_true, if_false, List.not_mem_nil, false_iff]
      rintro ⟨b, rest', heq, hb, -⟩
      obtain ⟨rfl, rfl⟩ := List.cons.inj heq
      exact hp hb

/-- A group ends where its pattern does, with what it has read. -/
theorem mem_run_group {n : ℕ} :
    d ∈ (group n r).run c ↔
      ∃ e ∈ r.run c, d = { e with groups := (n, c.upTo e) :: e.groups } := by
  rw [run_group, List.mem_map]
  constructor
  · rintro ⟨e, he, rfl⟩
    exact ⟨e, he, rfl⟩
  · rintro ⟨e, he, rfl⟩
    exact ⟨e, he, rfl⟩

/-- At the end of the text, `$` ends where it is. -/
theorem mem_run_finish : d ∈ finish.run c ↔ c.ahead = [] ∧ d = c := by
  rw [run_finish]
  split <;> simp_all

/-- At a boundary, `\b` ends where it is. -/
theorem mem_run_boundary {word : α → Bool} :
    d ∈ (boundary word).run c ↔ c.last.any word ≠ c.ahead.head?.any word ∧ d = c := by
  rw [run_boundary]
  split <;> simp_all

/-- A repeated class stops at the end of the text, -/
theorem run_star_one_nil {greedy : Bool} (h : c.ahead = []) :
    (star greedy (one p)).run c = [c] := by
  rw [run_star, h]
  rfl

/-- before a letter outside the class, -/
theorem run_star_one_of_false {greedy : Bool} {a : α} (h : c.ahead = a :: rest) (hp : p a = false) :
    (star greedy (one p)).run c = [c] := by
  rw [run_star, h, iterate_cons, run_one, h]
  simp [hp]

/-- and goes on over one of the class. -/
theorem run_star_one_of_true {greedy : Bool} {a : α} (h : c.ahead = a :: rest) (hp : p a = true) :
    (star greedy (one p)).run c =
      if greedy then (star greedy (one p)).run (c.next a rest) ++ [c]
      else c :: (star greedy (one p)).run (c.next a rest) := by
  have hnext : c.pos < (c.next a rest).pos := Nat.lt_succ_self _
  rw [run_star, h, iterate_cons, run_one, h]
  simp [hp, hnext, run_star]

/-- A repeated class matches the words of its letters. -/
theorem mem_run_star_one {greedy : Bool} :
    d ∈ (star greedy (one p)).run c ↔
      ∃ w rest, c.ahead = w ++ rest ∧ (∀ a ∈ w, p a = true) ∧ d = c.past w rest := by
  -- on the letters ahead: each of the class adds the words that begin with it
  obtain ⟨ahead, h⟩ : ∃ ahead, c.ahead = ahead := ⟨_, rfl⟩
  induction ahead generalizing c with
  | nil =>
    rw [run_star_one_nil h, List.mem_singleton]
    refine ⟨fun hd => ⟨[], c.ahead, rfl, by simp, hd⟩, ?_⟩
    rintro ⟨w, rest, hsplit, -, rfl⟩
    obtain ⟨rfl, -⟩ := List.append_eq_nil_iff.mp (hsplit.symm.trans h)
    obtain rfl : c.ahead = rest := hsplit
    rfl
  | cons a ahead ih =>
    have hstop : d = c → ∃ w rest, c.ahead = w ++ rest ∧ (∀ a ∈ w, p a = true) ∧
        d = c.past w rest := fun hd => ⟨[], c.ahead, rfl, by simp, hd⟩
    by_cases hp : p a = true
    · have hmem : d ∈ (star greedy (one p)).run c ↔
          d = c ∨ d ∈ (star greedy (one p)).run (c.next a ahead) := by
        rw [run_star_one_of_true h hp]
        cases greedy <;> simp [or_comm]
      rw [hmem, ih rfl]
      constructor
      · rintro (hd | ⟨w, rest, hsplit, hw, rfl⟩)
        · exact hstop hd
        · obtain rfl : ahead = w ++ rest := hsplit
          refine ⟨a :: w, rest, h, ?_, Cursor.past_next c a w rest⟩
          simpa using ⟨hp, hw⟩
      · rintro ⟨w, rest, hsplit, hw, rfl⟩
        cases w with
        | nil =>
          obtain rfl : c.ahead = rest := hsplit
          exact .inl rfl
        | cons b w =>
          obtain ⟨rfl, rfl⟩ := List.cons.inj (h.symm.trans hsplit)
          exact .inr ⟨w, rest, rfl, fun x hx => hw x (List.mem_cons_of_mem _ hx),
            (Cursor.past_next c a w rest).symm⟩
    · rw [run_star_one_of_false h (Bool.eq_false_iff.mpr hp), List.mem_singleton]
      refine ⟨hstop, ?_⟩
      rintro ⟨w, rest, hsplit, hw, rfl⟩
      cases w with
      | nil =>
        obtain rfl : c.ahead = rest := hsplit
        rfl
      | cons b w =>
        obtain ⟨rfl, -⟩ := List.cons.inj (h.symm.trans hsplit)
        exact absurd (hw a List.mem_cons_self) hp

/-- A repeated class ends past any stretch of its letters that is not empty. -/
theorem mem_run_plus_one :
    d ∈ (plus (one p)).run c ↔
      ∃ w rest, c.ahead = w ++ rest ∧ w ≠ [] ∧ (∀ a ∈ w, p a = true) ∧ d = c.past w rest := by
  rw [run_plus, List.mem_flatMap]
  constructor
  · rintro ⟨e, he, hd⟩
    obtain ⟨a, ahead, h, hp, rfl⟩ := mem_run_one.mp he
    obtain ⟨w, rest, hsplit, hw, rfl⟩ := mem_run_star_one.mp hd
    obtain rfl : ahead = w ++ rest := hsplit
    refine ⟨a :: w, rest, h, by simp, by simpa using ⟨hp, hw⟩, Cursor.past_past c [a] w rest⟩
  · rintro ⟨w, rest, h, hne, hw, rfl⟩
    obtain ⟨a, w, rfl⟩ := List.exists_cons_of_ne_nil hne
    refine ⟨c.past [a] (w ++ rest), mem_run_one.mpr ⟨a, w ++ rest, h, hw a (by simp), rfl⟩,
      mem_run_star_one.mpr ⟨w, rest, rfl, fun x hx => hw x (by simp [hx]), ?_⟩⟩
    exact (Cursor.past_past c [a] w rest).symm

/-- A class repeated at most so often matches the words of its letters that are no longer. -/
theorem mem_run_upTo_one {n : ℕ} :
    d ∈ (upTo (one p) n).run c ↔
      ∃ w rest, c.ahead = w ++ rest ∧ w.length ≤ n ∧ (∀ a ∈ w, p a = true) ∧ d = c.past w rest := by
  induction n generalizing c with
  | zero =>
    rw [run_upTo_zero, List.mem_singleton]
    refine ⟨fun hd => ⟨[], c.ahead, rfl, le_rfl, by simp, hd⟩, ?_⟩
    rintro ⟨w, rest, h, hlength, -, rfl⟩
    obtain rfl := List.length_eq_zero_iff.mp (Nat.le_zero.mp hlength)
    obtain rfl : c.ahead = rest := h
    rfl
  | succ n ih =>
    rw [run_upTo_succ, List.mem_append, mem_run_seq, List.mem_singleton]
    constructor
    · rintro (⟨e, he, hd⟩ | hd)
      · obtain ⟨a, ahead, h, hp, rfl⟩ := mem_run_one.mp he
        obtain ⟨w, rest, hsplit, hlength, hw, rfl⟩ := ih.mp hd
        obtain rfl : ahead = w ++ rest := hsplit
        refine ⟨a :: w, rest, h, by simpa using hlength, by simpa using ⟨hp, hw⟩,
          Cursor.past_past c [a] w rest⟩
      · exact ⟨[], c.ahead, rfl, Nat.zero_le _, by simp, hd⟩
    · rintro ⟨w, rest, h, hlength, hw, rfl⟩
      -- no letter, or one letter and at most `n` more
      cases w with
      | nil =>
        obtain rfl : c.ahead = rest := h
        exact .inr rfl
      | cons a w =>
        refine .inl ⟨c.past [a] (w ++ rest), mem_run_one.mpr ⟨a, w ++ rest, h, hw a (by simp), rfl⟩,
          ih.mpr ⟨w, rest, rfl, by simpa using hlength, fun x hx => hw x (by simp [hx]), ?_⟩⟩
        exact (Cursor.past_past c [a] w rest).symm

/-- A word matches itself. -/
theorem mem_run_word [LawfulBEq α] {v : List α} :
    d ∈ (word v).run c ↔ ∃ rest, c.ahead = v ++ rest ∧ d = c.past v rest := by
  induction v generalizing c with
  | nil =>
    rw [run_word_nil, List.mem_singleton]
    refine ⟨fun hd => ⟨c.ahead, rfl, hd⟩, ?_⟩
    rintro ⟨rest, h, rfl⟩
    obtain rfl : c.ahead = rest := h
    rfl
  | cons a v ih =>
    rw [run_word_cons, mem_run_seq]
    constructor
    · rintro ⟨e, he, hd⟩
      obtain ⟨b, ahead, h, hb, rfl⟩ := mem_run_one.mp he
      obtain ⟨rest, hsplit, rfl⟩ := ih.mp hd
      obtain rfl : ahead = v ++ rest := hsplit
      obtain rfl := eq_of_beq hb
      exact ⟨rest, h, Cursor.past_past c [b] v rest⟩
    · rintro ⟨rest, h, rfl⟩
      exact ⟨c.past [a] (v ++ rest), mem_run_one.mpr ⟨a, v ++ rest, h, beq_self_eq_true a, rfl⟩,
        ih.mpr ⟨rest, rfl, (Cursor.past_past c [a] v rest).symm⟩⟩

/-! ## What is tried first

What stands behind a pattern is a function that takes one of its ends, or none of them. -/

section First

variable {β : Type*} {b : β} {k : Cursor α → Option β}

omit [BEq α] in
/-- The first end is the first that a search for any end gives. -/
theorem head?_eq_findSome? (ds : List (Cursor α)) : ds.head? = ds.findSome? some := by
  cases ds <;> rfl

/-- A search among the ends of a sequence searches those of its second pattern in turn. -/
theorem findSome?_seq (r s : Pattern α) (c : Cursor α) (k : Cursor α → Option β) :
    ((seq r s).run c).findSome? k = (r.run c).findSome? fun d => (s.run d).findSome? k := by
  rw [run_seq]
  induction r.run c with
  | nil => rfl
  | cons d ds ih =>
    rw [List.flatMap_cons, List.findSome?_append, ih, List.findSome?_cons]
    cases (s.run d).findSome? k <;> rfl

/-- A search among the ends of a group is one among those of its pattern. -/
theorem findSome?_group (n : ℕ) (r : Pattern α) (c : Cursor α) (k : Cursor α → Option β) :
    ((group n r).run c).findSome? k =
      (r.run c).findSome? fun d => k { d with groups := (n, c.upTo d) :: d.groups } := by
  rw [run_group, List.findSome?_map]
  rfl

/-- A class has one end to search, past its letter. -/
theorem findSome?_one {a : α} (h : c.ahead = a :: rest) (hp : p a = true)
    (k : Cursor α → Option β) :
    ((one p).run c).findSome? k = k (c.past [a] rest) := by
  rw [run_one, h]
  simp only [hp, if_true]
  exact List.findSome?_singleton

/-- At the end of the text, `$` has one end to search. -/
theorem findSome?_finish (h : c.ahead = []) (k : Cursor α → Option β) :
    (finish.run c).findSome? k = k c := by
  rw [run_finish, h]
  exact List.findSome?_singleton

/-- A greedy class goes over all its letters first. -/
theorem findSome?_star_greedy (h : c.ahead = w ++ rest) (hw : ∀ a ∈ w, p a = true)
    (hrest : ∀ a ∈ rest.head?, p a = false) (hk : k (c.past w rest) = some b) :
    ((star true (one p)).run c).findSome? k = some b := by
  induction w generalizing c with
  | nil =>
    obtain rfl : c.ahead = rest := h
    rw [Cursor.past_nil] at hk
    cases hahead : c.ahead with
    | nil => rw [run_star_one_nil hahead, List.findSome?_cons, hk]
    | cons a rest =>
      rw [run_star_one_of_false hahead (hrest a (by simp [hahead])), List.findSome?_cons, hk]
  | cons a w ih =>
    have hahead : c.ahead = a :: (w ++ rest) := h
    rw [← Cursor.past_next] at hk
    have hnext := ih (c := c.next a (w ++ rest)) rfl (fun x hx => hw x (by simp [hx])) hk
    rw [run_star_one_of_true hahead (hw a (by simp)), if_pos rfl, List.findSome?_append, hnext,
      Option.some_or]

/-- So does one with an upper bound, over no more letters than that. -/
theorem findSome?_upTo_greedy {n : ℕ} (h : c.ahead = w ++ rest) (hlength : w.length ≤ n)
    (hw : ∀ a ∈ w, p a = true) (hrest : ∀ a ∈ rest.head?, p a = false)
    (hk : k (c.past w rest) = some b) : ((upTo (one p) n).run c).findSome? k = some b := by
  induction n generalizing c w with
  | zero =>
    obtain rfl := List.length_eq_zero_iff.mp (Nat.le_zero.mp hlength)
    obtain rfl : c.ahead = rest := h
    rw [run_upTo_zero, List.findSome?_cons]
    rw [Cursor.past_nil] at hk
    rw [hk]
  | succ n ih =>
    rw [run_upTo_succ, List.findSome?_append, findSome?_seq]
    cases w with
    | nil =>
      obtain rfl : c.ahead = rest := h
      rw [Cursor.past_nil] at hk
      -- no letter of the class is ahead, so the repetition stops here
      have hnone : (one p).run c = [] := by
        refine List.eq_nil_iff_forall_not_mem.mpr fun d hd => ?_
        obtain ⟨a, ahead, hahead, hp, -⟩ := mem_run_one.mp hd
        rw [hrest a (by simp [hahead])] at hp
        cases hp
      rw [hnone, List.findSome?_nil, Option.none_or, List.findSome?_cons, hk]
    | cons a w =>
      have hahead : c.ahead = a :: (w ++ rest) := h
      have hnext := ih (c := c.past [a] (w ++ rest)) rfl (by simpa using hlength)
        (fun x hx => hw x (by simp [hx])) (by rw [Cursor.past_past]; exact hk)
      rw [findSome?_one hahead (hw a (by simp)), hnext, Option.some_or]

/-- A lazy class stops where what stands behind it first takes its end. -/
theorem findSome?_star_lazy (h : c.ahead = w ++ rest) (hw : ∀ a ∈ w, p a = true)
    (hshort : ∀ v u, w = v ++ u → u ≠ [] → k (c.past v (u ++ rest)) = none)
    (hk : k (c.past w rest) = some b) : ((star false (one p)).run c).findSome? k = some b := by
  -- on the letters it goes over: it is refused where it stands as long as one is left
  induction w generalizing c with
  | nil =>
    obtain rfl : c.ahead = rest := h
    rw [Cursor.past_nil] at hk
    cases hahead : c.ahead with
    | nil => rw [run_star_one_nil hahead, List.findSome?_cons, hk]
    | cons a rest =>
      by_cases hp : p a = true
      · rw [run_star_one_of_true hahead hp]
        simp only [Bool.false_eq_true, if_false, List.findSome?_cons, hk]
      · rw [run_star_one_of_false hahead (Bool.eq_false_iff.mpr hp), List.findSome?_cons, hk]
  | cons a w ih =>
    have hahead : c.ahead = a :: (w ++ rest) := h
    have hhere : k c = none := by
      have hc := hshort [] (a :: w) rfl (List.cons_ne_nil a w)
      rwa [← h, Cursor.past_nil] at hc
    rw [← Cursor.past_next] at hk
    have hnext := ih (c := c.next a (w ++ rest)) rfl (fun x hx => hw x (by simp [hx]))
      (fun v u heq hu => by
        have hv := hshort (a :: v) u (by rw [heq]; rfl) hu
        rwa [← Cursor.past_next, ← List.append_assoc, ← heq] at hv) hk
    rw [run_star_one_of_true hahead (hw a (by simp))]
    simp only [Bool.false_eq_true, if_false, List.findSome?_cons, hhere]
    exact hnext

end First

/-! ## The methods -/

omit [BEq α] in
/-- There is a first end when there is any. -/
theorem isSome_head? {ds : List (Cursor α)} : ds.head?.isSome = true ↔ ∃ d, d ∈ ds := by
  rw [List.isSome_head?]
  exact ⟨List.exists_mem_of_ne_nil ds, fun ⟨_, hd⟩ => List.ne_nil_of_mem hd⟩

/-- A pattern matches at a place when it has an end from there. -/
theorem isSome_matchAt {pos : ℕ} {last : Option α} {ahead : List α} :
    (r.matchAt pos last ahead).isSome = true ↔ ∃ d, d ∈ r.run ⟨pos, last, ahead, []⟩ := by
  rw [matchAt, Option.isSome_map, isSome_head?]

omit [BEq α] in
/-- The letter before a place, of a text that begins behind another. -/
theorem getLast?_cons_or (a : α) (s : List α) (last : Option α) :
    (a :: s).getLast?.or last = s.getLast?.or (some a) := by
  cases s <;> simp [List.getLast?_cons]

/-- A search succeeds when a match starts somewhere. -/
theorem isSome_search {pos : ℕ} {last : Option α} {ahead : List α} :
    (r.search pos last ahead).isSome = true ↔
      ∃ v u, ahead = v ++ u ∧
        ∃ d, d ∈ r.run ⟨pos + v.length, v.getLast?.or last, u, []⟩ := by
  induction ahead generalizing pos last with
  | nil =>
    rw [search, isSome_matchAt]
    -- the match begins here or further on
    constructor
    · exact fun hrun => ⟨[], [], rfl, hrun⟩
    · rintro ⟨v, u, h, hrun⟩
      obtain ⟨rfl, rfl⟩ := List.append_eq_nil_iff.mp h.symm
      exact hrun
  | cons a ahead ih =>
    rw [search, Option.isSome_or, Bool.or_eq_true, isSome_matchAt, ih]
    constructor
    · rintro (hrun | ⟨v, u, rfl, hrun⟩)
      · exact ⟨[], a :: ahead, rfl, hrun⟩
      · refine ⟨a :: v, u, rfl, ?_⟩
        have hpos : pos + (a :: v).length = pos + 1 + v.length := by
          rw [List.length_cons]
          omega
        rwa [hpos, getLast?_cons_or]
    · rintro ⟨v, u, h, hrun⟩
      cases v with
      | nil =>
        obtain rfl : a :: ahead = u := h
        exact .inl hrun
      | cons b v =>
        obtain ⟨rfl, rfl⟩ := List.cons.inj h
        refine .inr ⟨v, u, rfl, ?_⟩
        have hpos : pos + (a :: v).length = pos + 1 + v.length := by
          rw [List.length_cons]
          omega
        rwa [hpos, getLast?_cons_or] at hrun

/-- A text is matched when a match starts somewhere. -/
theorem test_iff {text : List α} :
    r.test text = true ↔
      ∃ v u, text = v ++ u ∧ ∃ d, d ∈ r.run ⟨v.length, v.getLast?, u, []⟩ := by
  rw [test, exec, isSome_search]
  simp only [Nat.zero_add, Option.or_none]

/-- A pattern anchored at the start is tried there only. -/
theorem search_start {pos : ℕ} {last : Option α} {ahead : List α} (hpos : 0 < pos) :
    (seq start r).search pos last ahead = none := by
  have hmatch (ahead : List α) : (seq start r).matchAt pos last ahead = none := by
    rw [matchAt, run_seq, run_start, if_neg (Nat.pos_iff_ne_zero.mp hpos)]
    rfl
  induction ahead generalizing pos last with
  | nil => rw [search, hmatch]
  | cons a ahead ih =>
    rw [search, hmatch, Option.none_or]
    exact ih (Nat.succ_pos pos) fun ahead => by
      rw [matchAt, run_seq, run_start, if_neg (Nat.succ_ne_zero pos)]
      rfl

/-- A pattern that begins with `^` is tried at the beginning only. -/
theorem exec_start (text : List α) :
    (seq start r).exec text =
      ((r.run ⟨0, none, text, []⟩).head?).map (Match.mk ⟨0, none, text, []⟩) := by
  have hrun : ((seq start r).run ⟨0, none, text, []⟩).head? =
      (r.run ⟨0, none, text, []⟩).head? := by
    rw [run_seq, run_start, if_pos rfl, List.flatMap_singleton]
  cases text with
  | nil => rw [exec, search, matchAt, hrun]
  | cons a text => rw [exec, search, search_start (Nat.succ_pos 0), Option.or_none, matchAt, hrun]

/-- A pattern that begins with `^` matches when it has an end from the beginning. -/
theorem test_start {text : List α} :
    (seq start r).test text = true ↔ ∃ d, d ∈ r.run ⟨0, none, text, []⟩ := by
  rw [test, exec_start, Option.isSome_map, isSome_head?]

/-! ## Runs of a class -/

/-- Runs of a class, each replaced by a word; within a run or not. -/
def collapse (p : α → Bool) (w : List α) : Bool → List α → List α
  | _, [] => []
  | inside, a :: rest =>
      if p a then (if inside then [] else w) ++ collapse p w true rest
      else a :: collapse p w false rest

/-- The words between the runs of the class `p` that stand behind a letter of `q`; within such a run
or not, behind a letter. -/
def splitBehind (q p : α → Bool) : Bool → Option α → List α → List (List α)
  | _, _, [] => [[]]
  | inside, last, a :: rest =>
      if p a && inside then splitBehind q p true (some a) rest
      else if p a && last.any q then [] :: splitBehind q p true (some a) rest
      else (splitBehind q p false (some a) rest).modifyHead (a :: ·)

omit [BEq α] in
/-- Without a letter of the run there is nothing to replace. -/
theorem collapse_of_none {p : α → Bool} {w : List α} {inside : Bool} {s : List α}
    (h : ∀ a ∈ s, p a = false) : collapse p w inside s = s := by
  induction s generalizing inside with
  | nil => rfl
  | cons a s ih =>
    rw [collapse, h a List.mem_cons_self, if_neg Bool.false_ne_true,
      ih fun b hb => h b (List.mem_cons_of_mem a hb)]

omit [BEq α] in
/-- What follows a text is within a run when the text ends in one. -/
theorem collapse_append (p : α → Bool) (w : List α) (inside : Bool) (s t : List α) :
    collapse p w inside (s ++ t) =
      collapse p w inside s ++ collapse p w (s.getLast?.elim inside p) t := by
  induction s generalizing inside with
  | nil => rfl
  | cons a s ih =>
    have hlast (b : Bool) (hb : p a = b) :
        (a :: s).getLast?.elim inside p = s.getLast?.elim b p := by
      rw [List.getLast?_cons]
      cases s.getLast? <;> simp [hb]
    rw [List.cons_append, collapse, collapse]
    by_cases hp : p a = true
    · rw [if_pos hp, if_pos hp, ih, hlast true hp, List.append_assoc]
    · rw [if_neg hp, if_neg hp, ih, hlast false (Bool.eq_false_iff.mpr hp), List.cons_append]

omit [BEq α] in
/-- The letters of a text are letters outside the class and those of the word. -/
theorem mem_of_mem_collapse {p : α → Bool} {w : List α} {inside : Bool} {s : List α} {a : α}
    (h : a ∈ collapse p w inside s) : a ∈ w ∨ (a ∈ s ∧ p a = false) := by
  induction s generalizing inside with
  | nil => cases h
  | cons b s ih =>
    rw [collapse] at h
    split at h
    next =>
      rcases List.mem_append.mp h with h | h
      · cases inside
        · exact .inl h
        · cases h
      · exact (ih h).imp_right fun ha => ⟨List.mem_cons_of_mem b ha.1, ha.2⟩
    next hp =>
      rcases List.mem_cons.mp h with rfl | h
      · exact .inr ⟨List.mem_cons_self, Bool.eq_false_iff.mpr hp⟩
      · exact (ih h).imp_right fun ha => ⟨List.mem_cons_of_mem b ha.1, ha.2⟩

/-- No letter of a text is one at which it is cut, behind a letter. -/
def Uncut (q p : α → Bool) : Option α → List α → Prop
  | _, [] => True
  | last, a :: s => (p a = false ∨ last.any q = false) ∧ Uncut q p (some a) s

omit [BEq α] in
/-- A text has no cut when its parts have none, the second after the first. -/
theorem uncut_append {q p : α → Bool} {last : Option α} {s t : List α} :
    Uncut q p last (s ++ t) ↔ Uncut q p last s ∧ Uncut q p (s.getLast?.or last) t := by
  induction s generalizing last with
  | nil => simp [Uncut]
  | cons a s ih =>
    rw [List.cons_append, Uncut, Uncut, ih, getLast?_cons_or, and_assoc]

omit [BEq α] in
/-- Without a letter of the second class there is no cut. -/
theorem uncut_of_none {q p : α → Bool} {last : Option α} {s : List α}
    (h : ∀ a ∈ s, p a = false) : Uncut q p last s := by
  induction s generalizing last with
  | nil => trivial
  | cons a s ih =>
    exact ⟨.inl (h a List.mem_cons_self), ih fun b hb => h b (List.mem_cons_of_mem a hb)⟩

omit [BEq α] in
/-- Where no letter is of the first class, nor the one before, there is no cut. -/
theorem uncut_of_run {q p : α → Bool} {last : Option α} {s : List α} (hlast : last.any q = false)
    (h : ∀ a ∈ s, q a = false) : Uncut q p last s := by
  induction s generalizing last with
  | nil => trivial
  | cons a s ih =>
    exact ⟨.inr hlast, ih (h a List.mem_cons_self) fun b hb => h b (List.mem_cons_of_mem a hb)⟩

omit [BEq α] in
/-- A text that is not cut begins the first word. -/
theorem splitBehind_of_uncut {q p : α → Bool} {last : Option α} {s t : List α}
    (h : Uncut q p last s) :
    splitBehind q p false last (s ++ t) =
      (splitBehind q p false (s.getLast?.or last) t).modifyHead (s ++ ·) := by
  induction s generalizing last with
  | nil =>
    rw [List.nil_append, List.getLast?_nil, Option.none_or]
    cases splitBehind q p false last t <;> rfl
  | cons a s ih =>
    have hcut : (p a && last.any q) = false := by
      rw [Bool.and_eq_false_iff]
      exact h.1
    rw [List.cons_append, splitBehind, Bool.and_false, if_neg Bool.false_ne_true, hcut,
      if_neg Bool.false_ne_true, ih h.2, getLast?_cons_or, List.modifyHead_modifyHead]
    rfl

omit [BEq α] in
/-- A split has at least one part. -/
theorem splitBehind_ne_nil (q p : α → Bool) (inside : Bool) (last : Option α) (t : List α) :
    splitBehind q p inside last t ≠ [] := by
  induction t generalizing inside last with
  | nil => exact List.cons_ne_nil _ _
  | cons a t ih =>
    rw [splitBehind]
    split
    next => exact ih true (some a)
    next =>
      split
      next => exact List.cons_ne_nil _ _
      next =>
        obtain ⟨first, others, h⟩ := List.exists_cons_of_ne_nil (ih false (some a))
        rw [h]
        exact List.cons_ne_nil _ _

omit [BEq α] in
/-- The first word is empty, or it begins as the text does. -/
theorem exists_splitBehind (q p : α → Bool) (last : Option α) (t : List α) :
    ∃ first others, splitBehind q p false last t = first :: others ∧
      (first = [] ∨ first.head? = t.head?) := by
  cases t with
  | nil => exact ⟨[], [], rfl, .inl rfl⟩
  | cons a t =>
    rw [splitBehind, Bool.and_false, if_neg Bool.false_ne_true]
    split
    next => exact ⟨[], _, rfl, .inl rfl⟩
    next =>
      obtain ⟨first, others, h⟩ :=
        List.exists_cons_of_ne_nil (splitBehind_ne_nil q p false (some a) t)
      exact ⟨a :: first, others, by rw [h]; rfl, .inr rfl⟩

omit [BEq α] in
/-- A text that is not cut and begins outside the class lies in one of the words, behind an end of
what stands before it and before a start of what stands behind it. -/
theorem exists_mem_splitBehind {q p : α → Bool} {a : α} {s t : List α} (hp : p a = false)
    (h : ∀ last, Uncut q p last (a :: s)) (inside : Bool) (last : Option α) (v : List α) :
    ∃ earlier v' u others,
      splitBehind q p inside last (v ++ (a :: s ++ t)) =
        earlier ++ (v' ++ (a :: s ++ u)) :: others ∧
      (v' = [] ∨ v'.getLast? = v.getLast?) ∧ (u = [] ∨ u.head? = t.head?) ∧
      (earlier = [] → inside = false → v' = v) := by
  -- on what stands before it: a letter of it is within a run, is cut or begins the first word
  induction v generalizing inside last with
  | nil =>
    obtain ⟨u, others, hrest, hu⟩ := exists_splitBehind q p ((a :: s).getLast?.or last) t
    have hinside : splitBehind q p inside last (a :: s ++ t) =
        splitBehind q p false last (a :: s ++ t) := by
      rw [List.cons_append, splitBehind, splitBehind, hp]
      rfl
    refine ⟨[], [], u, others, ?_, .inl rfl, hu, fun _ _ => rfl⟩
    rw [List.nil_append, hinside, splitBehind_of_uncut (h last), hrest]
    rfl
  | cons b v ih =>
    have hlast {v' : List α} (hv : v' = [] ∨ v'.getLast? = v.getLast?) :
        v' = [] ∨ v'.getLast? = (b :: v).getLast? := by
      obtain rfl | hv := hv
      · exact .inl rfl
      · cases v with
        | nil => exact .inl (List.getLast?_eq_none_iff.mp hv)
        | cons c v => exact .inr (hv.trans List.getLast?_cons_cons.symm)
    rw [List.cons_append, splitBehind]
    split
    next hin =>
      obtain ⟨earlier, v', u, others, heq, hv, hu, -⟩ := ih true (some b)
      refine ⟨earlier, v', u, others, heq, hlast hv, hu, fun _ hfalse => ?_⟩
      rw [hfalse, Bool.and_false] at hin
      cases hin
    next =>
      split
      next =>
        obtain ⟨earlier, v', u, others, heq, hv, hu, -⟩ := ih true (some b)
        exact ⟨[] :: earlier, v', u, others, by rw [heq]; rfl, hlast hv, hu, nofun⟩
      next =>
        obtain ⟨earlier, v', u, others, heq, hv, hu, hfirst⟩ := ih false (some b)
        rw [heq]
        cases earlier with
        | nil =>
          obtain rfl := hfirst rfl rfl
          exact ⟨[], b :: v', u, others, rfl, .inr rfl, hu, fun _ _ => rfl⟩
        | cons word earlier =>
          exact ⟨(b :: word) :: earlier, v', u, others, rfl, hlast hv, hu, nofun⟩

/-- At the end of the text there may be one empty match left. -/
theorem pieces_nil (r : Pattern α) (covered pos : ℕ) (last : Option α) :
    r.pieces covered pos last [] = ((r.matchAt pos last []).map Piece.found).toList := by
  cases covered <;> rfl

/-- A letter a match has covered is passed over. -/
theorem pieces_covered (r : Pattern α) (covered pos : ℕ) (last : Option α) (a : α) (rest : List α) :
    r.pieces (covered + 1) pos last (a :: rest) = r.pieces covered (pos + 1) (some a) rest := rfl

/-- A letter at which nothing matches stands for itself. -/
theorem pieces_of_none {pos : ℕ} {last : Option α} {a : α}
    (h : r.matchAt pos last (a :: rest) = none) :
    r.pieces 0 pos last (a :: rest) = .letter a :: r.pieces 0 (pos + 1) (some a) rest := by
  rw [pieces, h]

/-- A match covers its letters, of which this is the first. -/
theorem pieces_of_some {pos covered : ℕ} {last : Option α} {a : α} {m : Match α}
    (h : r.matchAt pos last (a :: rest) = some m) (hm : m.stop - m.index = covered + 1) :
    r.pieces 0 pos last (a :: rest) = .found m :: r.pieces covered (pos + 1) (some a) rest := by
  rw [pieces, h]
  simp only [hm]

/-- A repeated class needs a letter of it. -/
theorem run_plus_one_of_false (h : ∀ a ∈ c.ahead.head?, p a = false) :
    (plus (one p)).run c = [] := by
  refine List.eq_nil_iff_forall_not_mem.mpr fun d hd => ?_
  obtain ⟨w, rest, hahead, hne, hw, -⟩ := mem_run_plus_one.mp hd
  obtain ⟨a, w, rfl⟩ := List.exists_cons_of_ne_nil hne
  have hp := h a (by simp [hahead])
  rw [hw a List.mem_cons_self] at hp
  cases hp

/-- It first goes over all of them. -/
theorem head?_run_plus_one {a : α} (h : c.ahead = a :: rest) (hp : p a = true) :
    ((plus (one p)).run c).head? =
      some (c.past (a :: rest.takeWhile p) (rest.dropWhile p)) := by
  have hsplit : rest = rest.takeWhile p ++ rest.dropWhile p :=
    List.takeWhile_append_dropWhile.symm
  have hstop : ∀ b ∈ (rest.dropWhile p).head?, p b = false := fun b hb => by
    have hnot := List.head?_dropWhile_not p rest
    rw [Option.mem_def.mp hb] at hnot
    simpa using hnot
  rw [head?_eq_findSome?, plus, findSome?_seq, findSome?_one h hp]
  refine findSome?_star_greedy hsplit
    (fun b hb => List.all_eq_true.mp List.all_takeWhile b hb) hstop ?_
  rw [show c.past [a] rest = c.past [a] (rest.takeWhile p ++ rest.dropWhile p) by rw [← hsplit],
    Cursor.past_past]
  rfl

/-- The letters that a run of the class still covers, within it or not. -/
def covered (p : α → Bool) (inside : Bool) (s : List α) : ℕ :=
  if inside then (s.takeWhile p).length else 0

section Guarded

variable {g : Option α → Bool} (hr : ∀ c, r.run c = if g c.last then (plus (one p)).run c else [])

include hr

/-- A guarded run is found where a letter of it follows a guard. -/
theorem matchAt_of_guarded (pos : ℕ) {last : Option α} {a : α} (rest : List α) (hp : p a = true)
    (hg : g last = true) :
    ∃ m, r.matchAt pos last (a :: rest) = some m ∧
      m.stop - m.index = (rest.takeWhile p).length + 1 := by
  have hmatch := head?_run_plus_one (c := ⟨pos, last, a :: rest, []⟩) rfl hp
  refine ⟨_, by rw [matchAt, hr, if_pos hg, hmatch]; rfl, ?_⟩
  exact Nat.add_sub_cancel_left pos _

/-- A guarded run is not found where no letter of it follows a guard. -/
theorem matchAt_eq_none_of_guarded (pos : ℕ) {last : Option α} {rest : List α}
    (h : ∀ a ∈ rest.head?, p a = true → g last = false) : r.matchAt pos last rest = none := by
  have hnil : r.run ⟨pos, last, rest, []⟩ = [] := by
    rw [hr]
    split
    next hg =>
      refine run_plus_one_of_false fun a ha => Bool.eq_false_iff.mpr fun hp => ?_
      have hfalse := h a ha hp
      rw [hg] at hfalse
      cases hfalse
    next => rfl
  rw [matchAt, hnil]
  rfl

/-- The parts of a text for a pattern that is a repeated class behind a letter. -/
theorem pieces_of_guarded (inside : Bool) (pos : ℕ) (last : Option α) (a : α) (rest : List α) :
    ∃ m, r.pieces (covered p inside (a :: rest)) pos last (a :: rest) =
      if p a && inside then r.pieces (covered p true rest) (pos + 1) (some a) rest
      else if p a && g last then
        .found m :: r.pieces (covered p true rest) (pos + 1) (some a) rest
      else .letter a :: r.pieces (covered p false rest) (pos + 1) (some a) rest := by
  -- a letter of the run is covered, begins a match behind a guard, or stands for itself
  by_cases hp : p a = true
  · cases inside with
    | true =>
      refine ⟨⟨⟨pos, last, rest, []⟩, ⟨pos, last, rest, []⟩⟩, ?_⟩
      rw [covered, if_pos rfl, List.takeWhile_cons_of_pos hp, List.length_cons, pieces_covered]
      simp [hp, covered]
    | false =>
      by_cases hg : g last = true
      · obtain ⟨m, hmatch, hlength⟩ := matchAt_of_guarded hr pos rest hp hg
        refine ⟨m, ?_⟩
        rw [covered, if_neg Bool.false_ne_true, pieces_of_some hmatch hlength]
        simp [hp, hg, covered]
      · have hnone : r.matchAt pos last (a :: rest) = none :=
          matchAt_eq_none_of_guarded hr pos fun _ _ _ => Bool.eq_false_iff.mpr hg
        refine ⟨⟨⟨pos, last, rest, []⟩, ⟨pos, last, rest, []⟩⟩, ?_⟩
        rw [covered, if_neg Bool.false_ne_true, pieces_of_none hnone]
        simp [hg, covered]
  · have hnone : r.matchAt pos last (a :: rest) = none :=
      matchAt_eq_none_of_guarded hr pos fun b hb hpb => absurd (Option.some.inj hb ▸ hpb) hp
    have hcovered : covered p inside (a :: rest) = 0 := by
      rw [covered, List.takeWhile_cons_of_neg hp]
      exact ite_self _
    refine ⟨⟨⟨pos, last, rest, []⟩, ⟨pos, last, rest, []⟩⟩, ?_⟩
    rw [hcovered, pieces_of_none hnone]
    simp [hp, covered]

/-- A guarded run is never empty, so the end of the text has none. -/
theorem pieces_nil_of_guarded (inside : Bool) (pos : ℕ) (last : Option α) :
    r.pieces (covered p inside []) pos last [] = [] := by
  rw [pieces_nil, matchAt_eq_none_of_guarded hr pos (by simp)]
  rfl

end Guarded

/-- Replacing the runs of a class. -/
theorem replaceAll_plus_one (p : α → Bool) (w : List α) (text : List α) :
    (plus (one p)).replaceAll (fun _ => w) text = collapse p w false text := by
  have hr (c : Cursor α) : (plus (one p)).run c =
      if (fun _ : Option α => true) c.last then (plus (one p)).run c else [] := (if_pos rfl).symm
  have hgeneral (inside : Bool) (pos : ℕ) (last : Option α) (s : List α) :
      ((plus (one p)).pieces (covered p inside s) pos last s).flatMap
        (fun
          | .letter a => [a]
          | .found _ => w) = collapse p w inside s := by
    induction s generalizing inside pos last with
    | nil =>
      rw [pieces_nil_of_guarded (g := fun _ => true) hr]
      rfl
    | cons a rest ih =>
      obtain ⟨m, hm⟩ := pieces_of_guarded (g := fun _ => true) hr inside pos last a rest
      rw [hm, collapse]
      cases p a <;> cases inside <;> simp [ih]
  exact hgeneral false 0 none text

/-- Splitting at the runs of a class behind a letter. -/
theorem split_behind_plus_one (q p : α → Bool) (text : List α) :
    (seq (behind true q) (plus (one p))).split text = splitBehind q p false none text := by
  have hr (c : Cursor α) : (seq (behind true q) (plus (one p))).run c =
      if c.last.any q then (plus (one p)).run c else [] := by
    rw [run_seq, run_behind]
    cases c.last.any q
    · rfl
    · exact List.flatMap_singleton _ _
  -- for any place in the text: whether a match is under way, and what the last letter was
  have hgeneral (inside : Bool) (pos : ℕ) (last : Option α) (s : List α) :
      words ((seq (behind true q) (plus (one p))).pieces (covered p inside s) pos last s) =
        splitBehind q p inside last s := by
    induction s generalizing inside pos last with
    | nil =>
      rw [pieces_nil_of_guarded (g := fun last => last.any q) hr]
      rfl
    | cons a rest ih =>
      obtain ⟨m, hm⟩ := pieces_of_guarded (g := fun last => last.any q) hr inside pos last a rest
      rw [hm, splitBehind]
      cases p a <;> cases inside <;> cases last.any q <;> simp [ih, words]
  exact hgeneral false 0 none text

end Pattern

end RegExp
