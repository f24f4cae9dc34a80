import MetaframerKernel.Node.Files

/-!
# Relative paths

`normalize`, `join` and `dirname` of `node:path` on POSIX paths as texts. A relative path is
normalized to the names it leads through, with a `..` in front for each step above its start.

## Main definitions

* `normalize`, `join`, `dirname`: the functions of those names;
* `walk`: the names a path leads to below a root, as long as it never leaves the root.

## Main results

* `foldl_normalStep_of_walk`, `foldl_normalStep_of_escape`: normalized names are those of the walk,
  or begin with `..` when it leaves the root;
* `dirname_pathOf`: the directory of a path of plain names;
* `join_of_walk`, `takeWhile_join_eq_up_iff`: a path joined to a directory, by its walk.
-/

namespace Node

open Js

/-- The segment that stays where it is. -/
def here : JsString := lit "."

/-- The segment that goes up. -/
def up : JsString := lit ".."

/-! ## The functions -/

/-- One segment in `normalizeString`. -/
def normalStep (allowAboveRoot : Bool) (names : List JsString) (segment : JsString) :
    List JsString :=
  if segment = [] ∨ segment = here then names
  else if segment = up then
    if names = [] ∨ names.getLast? = some up then
      if allowAboveRoot then names ++ [up] else names
    else names.dropLast
  else names ++ [segment]

/-- `path.normalize` -/
def normalize (p : JsString) : JsString :=
  if p = [] then here
  else
    let trailingSeparator := p.getLast? = some slash
    let names := (p.splitOn slash).foldl (normalStep (!isAbsolute p)) []
    if names = [] then
      -- nothing is left of the names
      if isAbsolute p then [slash] else if trailingSeparator then here ++ [slash] else here
    else
      let path := if trailingSeparator then pathOf names ++ [slash] else pathOf names
      if isAbsolute p then slash :: path else path

/-- `path.join` of two paths. -/
def join (p q : JsString) : JsString :=
  normalize ([slash].intercalate ([p, q].filter (· ≠ [])))

/-- `path.dirname` -/
def dirname (p : JsString) : JsString :=
  let rest := ((p.reverse.dropWhile (· = slash)).dropWhile (· ≠ slash)).tail.reverse
  if rest = [] then if isAbsolute p then [slash] else here
  else if rest = [slash] then [slash, slash]
  else rest

/-! ## Walks below a root -/

/-- One segment of a walk that does not leave the root. -/
def walkStep (names : List JsString) (segment : JsString) : Option (List JsString) :=
  if segment = [] ∨ segment = here then some names
  else if segment = up then if names = [] then none else some names.dropLast
  else some (names ++ [segment])

/-- The names that segments lead to below the root, if they never leave it on the way. -/
def walk (names segments : List JsString) : Option (List JsString) := segments.foldlM walkStep names

/-- Names that lead down. -/
def Descends (names : List JsString) : Prop := ∀ name ∈ names, IsName name

variable {names names' segments : List JsString} {segment : JsString}

/-- A step of the walk leaves names that descend. -/
theorem Descends.walkStep (h : Descends names) (hslash : slash ∉ segment)
    (hstep : walkStep names segment = some names') : Descends names' := by
  unfold Node.walkStep at hstep
  split_ifs at hstep with hhere hup hempty
  · exact Option.some.inj hstep ▸ h
  · obtain rfl := Option.some.inj hstep
    exact fun name hname => h name (List.mem_of_mem_dropLast hname)
  · obtain rfl := Option.some.inj hstep
    intro name hname
    rcases List.mem_append.mp hname with hname | hname
    · exact h name hname
    · rw [not_or] at hhere
      exact List.mem_singleton.mp hname ▸ ⟨hhere.1, hhere.2, hup, hslash⟩

/-- Names that descend do not end by going up. -/
theorem Descends.getLast? (h : Descends names) : names.getLast? ≠ some up :=
  fun hlast => (h up (List.mem_of_getLast? hlast)).2.2.1 rfl

/-- A step of the walk is one of the normalization. -/
theorem normalStep_of_walkStep (h : Descends names) (hstep : walkStep names segment = some names') :
    normalStep true names segment = names' := by
  unfold walkStep at hstep
  unfold normalStep
  by_cases hhere : segment = [] ∨ segment = here
  · rw [if_pos hhere] at hstep ⊢
    exact Option.some.inj hstep
  · rw [if_neg hhere] at hstep ⊢
    by_cases hup : segment = up
    · rw [if_pos hup] at hstep ⊢
      have hempty : names ≠ [] := by
        rintro rfl
        cases hstep
      rw [if_neg hempty] at hstep
      rw [if_neg (not_or.mpr ⟨hempty, h.getLast?⟩)]
      exact Option.some.inj hstep
    · rw [if_neg hup] at hstep ⊢
      exact Option.some.inj hstep

/-- Above the root the first name stays `..`. -/
theorem exists_normalStep_up (segment : JsString) (rest : List JsString) :
    ∃ rest', normalStep true (up :: rest) segment = up :: rest' := by
  unfold normalStep
  by_cases hhere : segment = [] ∨ segment = here
  · rw [if_pos hhere]
    exact ⟨rest, rfl⟩
  · rw [if_neg hhere, if_pos rfl]
    by_cases hup : segment = up
    · rw [if_pos hup]
      -- a name that is dropped is not the first one
      cases rest with
      | nil =>
        rw [if_pos (.inr rfl)]
        exact ⟨[up], rfl⟩
      | cons name rest =>
        by_cases hlast : up :: name :: rest = [] ∨ (up :: name :: rest).getLast? = some up
        · rw [if_pos hlast]
          exact ⟨name :: rest ++ [up], rfl⟩
        · rw [if_neg hlast]
          exact ⟨(name :: rest).dropLast, rfl⟩
    · rw [if_neg hup]
      exact ⟨rest ++ [segment], rfl⟩

/-- Once a path goes up above its start, it keeps doing so. -/
theorem exists_foldl_normalStep_up (segments rest : List JsString) :
    ∃ rest', segments.foldl (normalStep true) (up :: rest) = up :: rest' := by
  induction segments generalizing rest with
  | nil => exact ⟨rest, rfl⟩
  | cons segment segments ih =>
    obtain ⟨rest', hrest'⟩ := exists_normalStep_up segment rest
    rw [List.foldl_cons, hrest']
    exact ih rest'

/-- Segments that stay below the root are normalized to the names they lead to. -/
theorem foldl_normalStep_of_walk (h : Descends names)
    (hslash : ∀ segment ∈ segments, slash ∉ segment)
    (hwalk : walk names segments = some names') :
    segments.foldl (normalStep true) names = names' ∧ Descends names' := by
  induction segments generalizing names with
  | nil => exact Option.some.inj hwalk ▸ ⟨rfl, h⟩
  | cons segment segments ih =>
    rw [List.forall_mem_cons] at hslash
    rw [walk, List.foldlM_cons] at hwalk
    obtain ⟨next, hstep, hwalk⟩ := Option.bind_eq_some_iff.mp hwalk
    rw [List.foldl_cons, normalStep_of_walkStep h hstep]
    exact ih (h.walkStep hslash.1 hstep) hslash.2 hwalk

/-- Segments that leave the root are normalized to names that begin with `..`. -/
theorem foldl_normalStep_of_escape (h : Descends names)
    (hslash : ∀ segment ∈ segments, slash ∉ segment) (hwalk : walk names segments = none) :
    ∃ rest, segments.foldl (normalStep true) names = up :: rest := by
  induction segments generalizing names with
  | nil => cases hwalk
  | cons segment segments ih =>
    rw [List.forall_mem_cons] at hslash
    rw [walk, List.foldlM_cons] at hwalk
    rw [List.foldl_cons]
    cases hstep : walkStep names segment with
    | some next =>
      rw [hstep] at hwalk
      rw [normalStep_of_walkStep h hstep]
      exact ih (h.walkStep hslash.1 hstep) hslash.2 hwalk
    | none =>
      -- the walk goes up from the root here
      unfold walkStep at hstep
      split_ifs at hstep with hhere hup hempty
      subst hempty
      have hfirst : normalStep true [] segment = [up] := by
        rw [normalStep, if_neg hhere, if_pos hup, if_pos (.inl rfl), if_pos rfl, List.nil_append]
      rw [hfirst]
      exact exists_foldl_normalStep_up segments []

/-- Plain names are where they lead to. -/
theorem foldl_normalStep_of_descends (h : Descends segments) :
    segments.foldl (normalStep true) names = names ++ segments := by
  induction segments generalizing names with
  | nil => exact (List.append_nil names).symm
  | cons segment segments ih =>
    obtain ⟨⟨hempty, hhere, hup, -⟩, hrest⟩ := List.forall_mem_cons.mp h
    have hstep : normalStep true names segment = names ++ [segment] := by
      have hstays : ¬(segment = [] ∨ segment = here) := not_or.mpr ⟨hempty, hhere⟩
      rw [normalStep, if_neg hstays, if_neg (show ¬segment = up from hup)]
    rw [List.foldl_cons, hstep, ih hrest, List.append_assoc, List.singleton_append]

/-! ## Paths of plain names -/

/-- The path of some names is not empty. -/
theorem pathOf_ne_nil (hne : names ≠ []) (h : Descends names) : pathOf names ≠ [] := by
  cases names with
  | nil => exact absurd rfl hne
  | cons name names =>
    obtain ⟨hempty, -⟩ := h name List.mem_cons_self
    cases names with
    | nil => simpa [pathOf, List.intercalate] using hempty
    | cons _ _ => exact List.append_ne_nil_of_left_ne_nil hempty _

/-- One more name comes after a slash. -/
theorem pathOf_concat (hne : names ≠ []) (base : JsString) :
    pathOf (names ++ [base]) = pathOf names ++ slash :: base := by
  induction names with
  | nil => exact absurd rfl hne
  | cons name names ih =>
    cases names with
    | nil => simp [pathOf, List.intercalate]
    | cons next names =>
      have hcons (l : List JsString) (hl : l ≠ []) :
          pathOf (name :: l) = name ++ slash :: pathOf l := by
        cases l with
        | nil => exact absurd rfl hl
        | cons _ _ => simp [pathOf, List.intercalate]
      rw [List.cons_append, hcons _ (by simp), ih (by simp), hcons _ (by simp), List.append_assoc,
        List.cons_append]

/-- The text of the names up to the first separator is the first name. -/
theorem takeWhile_pathOf {name : JsString} (hslash : slash ∉ name) (rest : List JsString)
    {tail : JsString} (htail : tail = [] ∨ tail = [slash]) :
    (pathOf (name :: rest) ++ tail).takeWhile (· ≠ slash) = name := by
  have hkeep : ∀ u ∈ name, decide (u ≠ slash) = true := fun u hu =>
    decide_eq_true fun h => hslash (h ▸ hu)
  have hall : name.takeWhile (· ≠ slash) = name :=
    calc name.takeWhile (· ≠ slash) = (name ++ []).takeWhile (· ≠ slash) := by rw [List.append_nil]
      _ = name ++ [].takeWhile (· ≠ slash) := List.takeWhile_append_of_pos hkeep
      _ = name := List.append_nil name
  -- the name ends at a slash or with the text
  have hstop (t : JsString) : (name ++ slash :: t).takeWhile (· ≠ slash) = name := by
    rw [List.takeWhile_append_of_pos hkeep]
    simp
  cases rest with
  | nil =>
    rcases htail with rfl | rfl
    · simpa [pathOf, List.intercalate] using hall
    · simpa [pathOf, List.intercalate] using hstop []
  | cons next rest =>
    have hcons : pathOf (name :: next :: rest) ++ tail =
        name ++ slash :: (pathOf (next :: rest) ++ tail) := by
      simp [pathOf, List.intercalate]
    rw [hcons]
    exact hstop _

/-- The directory of plain names. -/
def directory (names : List JsString) : JsString := if names = [] then here else pathOf names

/-- The path of names is not the root. -/
theorem pathOf_ne_slash (h : Descends names) : pathOf names ≠ [slash] := by
  intro hpath
  have hrelative := isAbsolute_pathOf h
  rw [hpath] at hrelative
  cases hrelative

/-- The directory of a path of plain names. -/
theorem dirname_pathOf (h : Descends names) {base : JsString} (hbase : IsName base) :
    dirname (pathOf (names ++ [base])) = directory names := by
  unfold directory
  have hslash : slash ∉ base := hbase.2.2.2
  obtain ⟨u, rest, hrev⟩ := List.exists_cons_of_ne_nil (List.reverse_ne_nil_iff.mpr hbase.1)
  have hkeep : ∀ v ∈ base.reverse, decide (v ≠ slash) = true := fun v hv =>
    decide_eq_true fun heq => hslash (heq ▸ List.mem_reverse.mp hv)
  -- no separator is at the end, and the last name is dropped up to the one before it
  have hend (t : JsString) : (base.reverse ++ t).dropWhile (· = slash) = base.reverse ++ t := by
    have hu : u ≠ slash := of_decide_eq_true (hkeep u (hrev ▸ List.mem_cons_self))
    rw [hrev, List.cons_append, List.dropWhile_cons, if_neg (by simpa using hu)]
  by_cases hne : names = []
  · have hsingle : pathOf [base] = base := by simp [pathOf, List.intercalate]
    have hrelative : isAbsolute (pathOf [base]) = false :=
      isAbsolute_pathOf (List.forall_mem_singleton.mpr hbase)
    have hall : base.reverse.dropWhile (· ≠ slash) = [] := by
      rw [← List.append_nil base.reverse, List.dropWhile_append_of_pos hkeep, List.dropWhile_nil]
    have hlast := hend []
    rw [List.append_nil] at hlast
    rw [hsingle] at hrelative
    rw [hne, List.nil_append, hsingle, dirname, hlast, hall, List.tail_nil, List.reverse_nil,
      if_pos rfl, if_pos rfl, hrelative]
    rfl
  · have hdrop : (slash :: (pathOf names).reverse).dropWhile (· ≠ slash) =
        slash :: (pathOf names).reverse := by
      rw [List.dropWhile_cons, if_neg (by simp)]
    rw [if_neg hne, pathOf_concat hne, dirname, List.reverse_append, List.reverse_cons,
      List.append_assoc, List.singleton_append, hend, List.dropWhile_append_of_pos hkeep, hdrop,
      List.tail_cons, List.reverse_reverse]
    simp only [if_neg (pathOf_ne_nil hne h), if_neg (pathOf_ne_slash h)]

/-! ## A path in a directory -/

/-- No segment of a path has a separator. -/
theorem notMem_of_splitOn (p : JsString) : ∀ segment ∈ p.splitOn slash, slash ∉ segment := by
  induction p with
  | nil => simp
  | cons u p ih =>
    obtain ⟨first, segments, hsegments⟩ :=
      List.exists_cons_of_ne_nil (List.splitOn_ne_nil slash p)
    rw [List.splitOn_cons_eq_if_modifyHead, hsegments, List.modifyHead_cons]
    rw [hsegments, List.forall_mem_cons] at ih
    split_ifs with hu
    · exact List.forall_mem_cons.mpr ⟨List.not_mem_nil, List.forall_mem_cons.mpr ih⟩
    · refine List.forall_mem_cons.mpr ⟨List.not_mem_cons_of_ne_of_not_mem ?_ ih.1, ih.2⟩
      rintro rfl
      exact hu (beq_self_eq_true _)

section Join

variable {p : JsString}

/-- The text of names, with the separator at the end that the path has. -/
def render (names : List JsString) (trailingSeparator : Bool) : JsString :=
  (if names = [] then here else pathOf names) ++ if trailingSeparator then [slash] else []

/-- The directory of names is not empty. -/
theorem directory_ne_nil (h : Descends names) : directory names ≠ [] := by
  unfold directory
  split_ifs with hne
  · exact List.cons_ne_nil _ _
  · exact pathOf_ne_nil hne h

/-- The directory of names is relative. -/
theorem isAbsolute_directory (h : Descends names) : isAbsolute (directory names) = false := by
  unfold directory
  split_ifs with hne
  · rfl
  · exact isAbsolute_pathOf h

/-- The segments of a directory are normalized to its names. -/
theorem foldl_normalStep_directory (h : Descends names) :
    ((directory names).splitOn slash).foldl (normalStep true) [] = names := by
  unfold directory
  split_ifs with hne
  · rw [hne]
    rfl
  · rw [pathOf, List.splitOn_intercalate slash (fun name hname => (h name hname).2.2.2) hne,
      foldl_normalStep_of_descends h, List.nil_append]

/-- The first name of a rendered path. -/
theorem takeWhile_render {name : JsString} (hslash : slash ∉ name) (rest : List JsString)
    (trailingSeparator : Bool) :
    (render (name :: rest) trailingSeparator).takeWhile (· ≠ slash) = name := by
  rw [render, if_neg (List.cons_ne_nil _ _)]
  cases trailingSeparator with
  | false => exact takeWhile_pathOf hslash rest (.inl rfl)
  | true => exact takeWhile_pathOf hslash rest (.inr rfl)

/-- The first segment of a path is its text up to the first separator. -/
theorem exists_splitOn_cons (p : JsString) :
    ∃ rest, p.splitOn slash = p.takeWhile (· ≠ slash) :: rest := by
  induction p with
  | nil => exact ⟨[], rfl⟩
  | cons u p ih =>
    obtain ⟨rest, hrest⟩ := ih
    rw [List.splitOn_cons_eq_if_modifyHead, hrest, List.modifyHead_cons, List.takeWhile_cons]
    by_cases hu : u = slash
    · exact ⟨p.takeWhile (· ≠ slash) :: rest, by simp [hu]⟩
    · exact ⟨rest, by simp [hu]⟩

/-- A path that is normalized as names, with the separator at its end. -/
theorem normalize_eq_render (hp : p ≠ []) (hrelative : isAbsolute p = false) :
    normalize p = render ((p.splitOn slash).foldl (normalStep true) [])
      (p.getLast? = some slash) := by
  rw [normalize, if_neg hp, hrelative, Bool.not_false]
  simp only [render, decide_eq_true_eq, Bool.false_eq_true, if_false]
  split_ifs
  · rfl
  · exact (List.append_nil here).symm
  · rfl
  · exact (List.append_nil _).symm

/-- What begins with `..` still does when it is normalized. -/
theorem takeWhile_normalize (h : p.takeWhile (· ≠ slash) = up) :
    (normalize p).takeWhile (· ≠ slash) = up := by
  have hp : p ≠ [] := by
    rintro rfl
    cases h
  have hrelative : isAbsolute p = false := by
    obtain ⟨u, rest, rfl⟩ := List.exists_cons_of_ne_nil hp
    rw [isAbsolute, List.head?_cons, decide_eq_false_iff_not, Option.some_inj]
    rintro rfl
    rw [List.takeWhile_cons, if_neg (by simp)] at h
    exact absurd h (by decide)
  obtain ⟨rest, hrest⟩ := exists_splitOn_cons p
  obtain ⟨names, hnames⟩ := exists_foldl_normalStep_up rest []
  have hfirst : normalStep true [] up = [up] := by decide
  rw [normalize_eq_render hp hrelative, hrest, h, List.foldl_cons, hfirst, hnames]
  exact takeWhile_render (by decide) names _

/-- The path of names does not end in a slash. -/
theorem getLast?_pathOf (h : Descends names) : (pathOf names).getLast? ≠ some slash := by
  intro hlast
  rcases List.eq_nil_or_concat names with rfl | ⟨init, base, rfl⟩
  · cases hlast
  · rw [List.concat_eq_append] at h hlast
    obtain ⟨hempty, -, -, hslash⟩ := h base (List.mem_append_right _ List.mem_cons_self)
    have hbase : (pathOf (init ++ [base])).getLast? = base.getLast? := by
      by_cases hinit : init = []
      · simp [hinit, pathOf, List.intercalate]
      · rw [pathOf_concat hinit, List.getLast?_append_of_ne_nil _ (List.cons_ne_nil slash base),
          List.getLast?_cons_of_ne_nil hempty]
    rw [hbase] at hlast
    exact hslash (List.mem_of_getLast? hlast)

/-- Names that lead down are normalized already. -/
theorem normalize_render (h : Descends names) (trailingSeparator : Bool) :
    normalize (render names trailingSeparator) = render names trailingSeparator := by
  by_cases hne : names = []
  · subst hne
    cases trailingSeparator <;> decide
  · have hnames := pathOf_ne_nil hne h
    have hrelative (tail : JsString) : isAbsolute (pathOf names ++ tail) = false := by
      rw [isAbsolute, List.head?_append_of_ne_nil _ hnames]
      exact isAbsolute_pathOf h
    have hsplit : (pathOf names).splitOn slash = names :=
      List.splitOn_intercalate slash (fun name hname => (h name hname).2.2.2) hne
    -- no step of the fold takes a name off, since none is empty, `.` or `..`
    have hfold : names.foldl (normalStep true) [] = [] ++ names := foldl_normalStep_of_descends h
    rw [render, if_neg hne]
    -- a trailing separator adds one empty segment, which the fold drops, and comes back at the end
    cases trailingSeparator with
    | false =>
      simp only [Bool.false_eq_true, if_false, List.append_nil]
      have hlast : decide ((pathOf names).getLast? = some slash) = false :=
        decide_eq_false (getLast?_pathOf h)
      have hrelative := hrelative []
      rw [List.append_nil] at hrelative
      rw [normalize_eq_render hnames hrelative, hsplit, hfold, hlast, List.nil_append, render,
        if_neg hne, if_neg Bool.false_ne_true, List.append_nil]
    | true =>
      have hlast : (pathOf names ++ [slash]).getLast? = some slash := List.getLast?_concat
      have hstay : normalStep true names [] = names := by
        rw [normalStep, if_pos (.inl rfl)]
      rw [if_pos rfl, normalize_eq_render (List.append_ne_nil_of_left_ne_nil hnames _)
        (hrelative [slash]), hlast, List.splitOn_append_cons_self, hsplit, List.foldl_append, hfold,
        List.nil_append, List.splitOn_nil, List.foldl_cons, List.foldl_nil, hstay, render,
        if_neg hne, if_pos (decide_eq_true rfl)]

/-! ## Joining -/

/-- A path joined to a directory is normalized segment by segment from the names of the
directory. -/
theorem join_directory (h : Descends names) :
    join (directory names) p =
      render ((p.splitOn slash).foldl (normalStep true) names) (p.getLast? = some slash) := by
  have hd := directory_ne_nil h
  by_cases hp : p = []
  · -- an empty path is left out of the joined text
    subst hp
    have hrender : render names false = directory names := List.append_nil _
    have hjoined : [slash].intercalate ([directory names, []].filter (· ≠ [])) =
        render names false := by
      simp [hd, hrender, List.intercalate]
    have hstay : normalStep true names [] = names := if_pos (.inl rfl)
    rw [join, hjoined, normalize_render h, List.splitOn_nil, List.foldl_cons, List.foldl_nil, hstay]
    rfl
  · have hjoined : [slash].intercalate ([directory names, p].filter (· ≠ [])) =
        directory names ++ slash :: p := by
      simp [hd, hp, List.intercalate]
    -- the joined text begins as the directory does and ends as the path does
    have hrelative : isAbsolute (directory names ++ slash :: p) = false := by
      rw [isAbsolute, List.head?_append_of_ne_nil _ hd]
      exact isAbsolute_directory h
    have hlast : (directory names ++ slash :: p).getLast? = p.getLast? := by
      rw [List.getLast?_append_of_ne_nil _ (List.cons_ne_nil slash p),
        List.getLast?_cons_of_ne_nil hp]
    have hne : directory names ++ slash :: p ≠ [] := List.append_ne_nil_of_left_ne_nil hd _
    rw [join, hjoined, normalize_eq_render hne hrelative, hlast, List.splitOn_append_cons_self,
      List.foldl_append, foldl_normalStep_directory h]

/-- A path that never leaves the root on its way leads to the names of the walk. -/
theorem join_of_walk (h : Descends names)
    (hwalk : walk names (p.splitOn slash) = some names') :
    join (directory names) p = render names' (p.getLast? = some slash) ∧ Descends names' := by
  obtain ⟨hfold, hnames'⟩ := foldl_normalStep_of_walk h (notMem_of_splitOn p) hwalk
  exact ⟨by rw [join_directory h, hfold], hnames'⟩

/-- A path joined to a directory begins with `..` exactly when it leaves the root on its way. -/
theorem takeWhile_join_eq_up_iff (h : Descends names) :
    (join (directory names) p).takeWhile (· ≠ slash) = up ↔
      walk names (p.splitOn slash) = none := by
  cases hwalk : walk names (p.splitOn slash) with
  | none =>
    obtain ⟨rest, hrest⟩ := foldl_normalStep_of_escape h (notMem_of_splitOn p) hwalk
    rw [join_directory h, hrest]
    exact iff_of_true (takeWhile_render (by decide) rest _) rfl
  | some names' =>
    obtain ⟨hjoin, hnames'⟩ := join_of_walk h hwalk
    rw [hjoin]
    refine iff_of_false (fun htake => ?_) (Option.some_ne_none _)
    cases names' with
    | nil =>
      revert htake
      cases decide (p.getLast? = some slash) <;> decide
    | cons name rest =>
      obtain ⟨-, -, hup, hslash⟩ := hnames' name List.mem_cons_self
      rw [takeWhile_render hslash] at htake
      exact hup htake

end Join

end Node
