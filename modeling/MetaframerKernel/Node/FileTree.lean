import MetaframerKernel.Node.Files
import Mathlib.Data.List.AList

/-!
# Trees of files

The files and directories of a POSIX file system without links, and the calls of `node:fs` that read
and make them. A call that makes something may be interrupted.

## Main definitions

* `FileTree`: entries by path, each in a directory;
* `FileTree.locate`: where a path leads;
* `FileTree.makeDirectory`, `FileTree.writeFile`;
* `Performs`: a list of calls, up to its end or up to an interruption.

## Main results

* `Performs.grows`: calls below an empty directory leave all else as it is;
* `exists_performs`: and there they go through;
* `Performs.files_eq`: what they have written when they have.
-/

namespace Node

open Js

/-- What is at a path. -/
inductive Entry where
  | file (bytes : List UInt8)
  | directory
deriving DecidableEq

/-- The entries of a file system: the root is a directory, and what has a name is in one. -/
structure FileTree where
  entries : AList fun _ : AbsolutePath => Entry
  root : entries.lookup [] = some .directory
  parent : ∀ p name, entries.lookup (p ++ [name]) ≠ none → entries.lookup p = some .directory

namespace FileTree

/-- The entry at a path. -/
def entry (t : FileTree) (p : AbsolutePath) : Option Entry := t.entries.lookup p

/-- The files of a tree. -/
def files (t : FileTree) : FileSystem := fun p =>
  match t.entry p with
  | some (.file bytes) => some bytes
  | _ => none

/-! ## Reading -/

/-- One step of a path: each name is looked up in a directory. -/
def step (t : FileTree) (dir : AbsolutePath) (name : JsString) : Option AbsolutePath :=
  if t.entry dir = some .directory then
    if t.entry (enter dir name) = none then none else some (enter dir name)
  else none

/-- The path of what a call is given, relative to the working directory. -/
def locate (t : FileTree) (cwd : AbsolutePath) (p : JsString) : Option AbsolutePath :=
  (p.splitOn slash).foldlM t.step (if isAbsolute p then [] else cwd)

/-- `readFileSync(p, "utf8")`, `none` where it throws. -/
def readFile (t : FileTree) (cwd : AbsolutePath) (p : JsString) : Option (List Char) :=
  (t.locate cwd p).bind t.files.readText

/-- The name of a path in a directory. -/
def nameIn (dir p : AbsolutePath) : Option JsString :=
  if p.dropLast = dir then p.getLast? else none

/-- The names in a directory. -/
def names (t : FileTree) (dir : AbsolutePath) : List JsString :=
  t.entries.keys.filterMap (nameIn dir)

/-- `readdirSync(p)`, `none` where it throws. -/
def readDirectory (t : FileTree) (cwd : AbsolutePath) (p : JsString) : Option (List JsString) := do
  let dir ← t.locate cwd p
  if t.entry dir = some .directory then some (t.names dir) else none

section Reading

variable {t : FileTree} {p q dir : AbsolutePath}

/-- A step leads to the entry it names. -/
theorem step_eq_some {name : JsString} (h : t.step dir name = some q) : q = enter dir name := by
  unfold step at h
  split_ifs at h
  exact (Option.some.inj h).symm

/-- A path that leads somewhere leads to where it resolves to. -/
theorem locate_eq_some {cwd : AbsolutePath} {path : JsString} (h : t.locate cwd path = some q) :
    q = resolve cwd path := by
  have hfold (segments : List JsString) (dir : AbsolutePath)
      (h : segments.foldlM t.step dir = some q) : q = segments.foldl enter dir := by
    induction segments generalizing dir with
    | nil => exact (Option.some.inj h).symm
    | cons segment segments ih =>
      rw [List.foldlM_cons] at h
      obtain ⟨next, hnext, h⟩ := Option.bind_eq_some_iff.mp h
      rw [List.foldl_cons, ← step_eq_some hnext]
      exact ih next h
  exact hfold _ _ h

/-- What is on the way to an entry is a directory. -/
theorem entry_of_append {rest : List JsString} (hne : rest ≠ [])
    (h : t.entry (p ++ rest) ≠ none) : t.entry p = some .directory := by
  induction rest using List.reverseRecOn with
  | nil => exact absurd rfl hne
  | append_singleton rest name ih =>
    rw [← List.append_assoc] at h
    have hparent : t.entry (p ++ rest) = some .directory := t.parent _ _ h
    by_cases hrest : rest = []
    · rwa [hrest, List.append_nil] at hparent
    · exact ih hrest (by rw [hparent]; exact Option.some_ne_none _)

/-- An entry of a directory is among its names. -/
theorem mem_names {name : JsString} (h : t.entry (dir ++ [name]) ≠ none) : name ∈ t.names dir := by
  refine List.mem_filterMap.mpr ⟨dir ++ [name], ?_, ?_⟩
  · rw [← AList.mem_keys, ← AList.lookup_isSome]
    exact Option.isSome_iff_ne_none.mpr h
  · rw [nameIn, if_pos List.dropLast_concat, List.getLast?_concat]

/-- Nothing is below a directory without names. -/
theorem entry_of_names_eq_nil (h : t.names dir = []) {rest : List JsString} (hne : rest ≠ []) :
    t.entry (dir ++ rest) = none := by
  by_contra hentry
  obtain ⟨name, rest, rfl⟩ := List.exists_cons_of_ne_nil hne
  have hname : t.entry (dir ++ [name]) ≠ none := by
    by_cases hrest : rest = []
    · rwa [hrest] at hentry
    · rw [← List.singleton_append, ← List.append_assoc] at hentry
      rw [entry_of_append hrest hentry]
      exact Option.some_ne_none _
  have hmem := mem_names hname
  rw [h] at hmem
  cases hmem

end Reading

/-! ## Making entries -/

/-- A new entry in a directory, or a file in the place of another. -/
def put (t : FileTree) (p : AbsolutePath) (e : Entry) (hne : p ≠ [])
    (hdir : t.entry p.dropLast = some .directory) (hfree : t.entry p ≠ some .directory) :
    FileTree where
  entries := t.entries.insert p e
  root := by rw [AList.lookup_insert_ne (Ne.symm hne)]; exact t.root
  parent q name h := by
    by_cases hq : q = p
    · -- what is in `p` would be in a directory
      subst hq
      rw [AList.lookup_insert_ne (by simp)] at h
      exact absurd (t.parent q name h) hfree
    · rw [AList.lookup_insert_ne hq]
      by_cases hchild : q ++ [name] = p
      · rw [← hchild, List.dropLast_concat] at hdir
        exact hdir
      · rw [AList.lookup_insert_ne hchild] at h
        exact t.parent q name h

/-- The directories that are missing on the way down. -/
def makeBelow (t : FileTree) (dir : AbsolutePath) : List JsString → Option FileTree
  | [] => some t
  | name :: rest =>
      match hentry : t.entry (dir ++ [name]) with
      | some .directory => t.makeBelow (dir ++ [name]) rest
      -- a file in the way
      | some (.file _) => none
      | none =>
          if hdir : t.entry dir = some .directory then
            (t.put (dir ++ [name]) .directory (by simp) (by rwa [List.dropLast_concat])
              (by simp [hentry])).makeBelow (dir ++ [name]) rest
          else none

/-- `mkdirSync(p, { recursive: true })`, `none` where it throws. -/
def makeDirectory (t : FileTree) (p : AbsolutePath) : Option FileTree := t.makeBelow [] p

/-- `writeFileSync(p, bytes)`, `none` where it throws. -/
def writeFile (t : FileTree) (p : AbsolutePath) (bytes : List UInt8) : Option FileTree :=
  if h : p ≠ [] ∧ t.entry p.dropLast = some .directory ∧ t.entry p ≠ some .directory then
    some (t.put p (.file bytes) h.1 h.2.1 h.2.2)
  else none


section Making

variable {t t' : FileTree} {p q dir : AbsolutePath} {bytes : List UInt8}

/-- An entry that is put is there. -/
theorem entry_put_self {e : Entry} {hne hdir hfree} : (t.put p e hne hdir hfree).entry p = some e :=
  AList.lookup_insert _

/-- Putting an entry leaves the others as they were. -/
theorem entry_put_of_ne {e : Entry} {hne hdir hfree} (h : q ≠ p) :
    (t.put p e hne hdir hfree).entry q = t.entry q := AList.lookup_insert_ne h

/-- Directories are made where nothing was, on the way. -/
theorem makeBelow_eq_some {rest : List JsString} (h : t.makeBelow dir rest = some t') :
    (∀ q, t'.entry q = t.entry q ∨
      (t.entry q = none ∧ t'.entry q = some .directory ∧ q <+: dir ++ rest)) ∧
    (t.entry dir = some .directory → t'.entry (dir ++ rest) = some .directory) := by
  induction rest generalizing t dir with
  | nil =>
    obtain rfl := Option.some.inj h
    exact ⟨fun _ => .inl rfl, fun hdir => by rwa [List.append_nil]⟩
  | cons name rest ih =>
    have happend : dir ++ name :: rest = dir ++ [name] ++ rest := by simp
    rw [happend]
    rw [makeBelow] at h
    split at h
    · next hentry => exact ⟨(ih h).1, fun _ => (ih h).2 hentry⟩
    · cases h
    · next hentry =>
      split_ifs at h with hdir
      obtain ⟨hrest, hmade⟩ := ih h
      refine ⟨fun q => ?_, fun _ => hmade entry_put_self⟩
      by_cases hq : q = dir ++ [name]
      · subst hq
        -- it has just been made, and stays
        rcases hrest (dir ++ [name]) with hsame | ⟨hnone, -, -⟩
        · exact .inr ⟨hentry, hsame.trans entry_put_self, List.prefix_append _ _⟩
        · rw [entry_put_self] at hnone
          cases hnone
      · have hput := hrest q
        rwa [entry_put_of_ne hq] at hput

/-- They can be made where no file is on the way. -/
theorem exists_makeBelow {rest : List JsString} (hdir : t.entry dir = some .directory)
    (h : ∀ taken, taken <+: rest → ∀ bytes, t.entry (dir ++ taken) ≠ some (.file bytes)) :
    ∃ t', t.makeBelow dir rest = some t' := by
  induction rest generalizing t dir with
  | nil => exact ⟨t, rfl⟩
  | cons name rest ih =>
    -- no file is on the way from the next directory either
    have hnext (taken : List JsString) (htaken : taken <+: rest) (bytes : List UInt8) :
        t.entry (dir ++ [name] ++ taken) ≠ some (.file bytes) := by
      have hmore := h (name :: taken) (List.cons_prefix_cons.mpr ⟨rfl, htaken⟩) bytes
      rwa [List.append_assoc, List.singleton_append]
    rw [makeBelow]
    split
    · next hentry => exact ih hentry hnext
    · next bytes hentry => exact absurd hentry (h [name] (by simp) bytes)
    · next hentry =>
      rw [dif_pos hdir]
      refine ih entry_put_self fun taken htaken bytes => ?_
      -- what was put there is the directory alone
      by_cases hq : dir ++ [name] ++ taken = dir ++ [name]
      · rw [hq, entry_put_self]
        exact nofun
      · rw [entry_put_of_ne hq]
        exact hnext taken htaken bytes

/-- A written file has its bytes, and nothing else has changed. -/
theorem writeFile_eq_some (h : t.writeFile p bytes = some t') :
    t'.entry p = some (.file bytes) ∧ ∀ q ≠ p, t'.entry q = t.entry q := by
  unfold writeFile at h
  split_ifs at h
  obtain rfl := Option.some.inj h
  exact ⟨entry_put_self, fun q hq => entry_put_of_ne hq⟩

/-- A file can be written into a directory where no directory has its name. -/
theorem exists_writeFile (hne : p ≠ []) (hdir : t.entry p.dropLast = some .directory)
    (hfree : t.entry p ≠ some .directory) : ∃ t', t.writeFile p bytes = some t' :=
  ⟨_, dif_pos ⟨hne, hdir, hfree⟩⟩

end Making

end FileTree

/-! ## Calls -/

/-- A call that makes something. -/
inductive MakeCall where
  | directory (p : AbsolutePath)
  | file (p : AbsolutePath) (bytes : List UInt8)

namespace MakeCall

/-- What a call makes, `none` where it throws. -/
def run (t : FileTree) : MakeCall → Option FileTree
  | directory p => t.makeDirectory p
  | file p bytes => t.writeFile p bytes

/-- What a call that was interrupted may leave: some of the directories, or a part of the file. -/
def Leaves (t t' : FileTree) : MakeCall → Prop
  | directory p => ∃ q, q <+: p ∧ t.makeDirectory q = some t'
  | file p _ => t' = t ∨ ∃ bytes, t.writeFile p bytes = some t'

end MakeCall

/-- Calls one after the other, and whether they have come to their end. -/
inductive Performs : FileTree → List MakeCall → FileTree → Bool → Prop
  | nil (t : FileTree) : Performs t [] t true
  | cons {t t' t'' : FileTree} {call : MakeCall} {calls : List MakeCall} {completed : Bool}
      (hrun : call.run t = some t') (hrest : Performs t' calls t'' completed) :
      Performs t (call :: calls) t'' completed
  | interrupted {t t' : FileTree} {call : MakeCall} (calls : List MakeCall)
      (hleaves : call.Leaves t t') : Performs t (call :: calls) t' false

/-- A tree has what another has, and beside it what is below a directory. -/
structure GrowsBelow (dir : AbsolutePath) (t t' : FileTree) : Prop where
  kept : ∀ p, t.entry p ≠ none → t'.entry p = t.entry p
  below : ∀ p, t.entry p = none → t'.entry p ≠ none → dir <+: p

/-- The call makes something in the directory, or a file below it. -/
def MakeCall.IsBelow (dir : AbsolutePath) : MakeCall → Prop
  | .directory p => dir <+: p
  | .file p _ => dir <+: p ∧ p ≠ dir

section Growing

variable {t₀ t t' : FileTree} {p dir : AbsolutePath} {calls : List MakeCall} {completed : Bool}

/-- A tree that has not changed has grown nowhere else. -/
theorem GrowsBelow.refl : GrowsBelow dir t t := ⟨fun _ _ => rfl, fun _ h h' => absurd h h'⟩

/-- Directories made on the way to a path below. -/
theorem GrowsBelow.makeDirectory (h : GrowsBelow dir t₀ t) (hdir : t₀.entry dir = some .directory)
    {q : AbsolutePath} (hq : q <+: p) (hp : dir <+: p) (hmade : t.makeDirectory q = some t') :
    GrowsBelow dir t₀ t' := by
  have hchanged := (FileTree.makeBelow_eq_some hmade).1
  constructor
  · intro r hr
    have hkept := h.kept r hr
    rcases hchanged r with hsame | ⟨hnone, -, -⟩
    · exact hsame.trans hkept
    · rw [hnone] at hkept
      exact absurd hkept.symm hr
  · intro r hr hr'
    rcases hchanged r with hsame | ⟨hnone, -, hway⟩
    · exact h.below r hr (hsame ▸ hr')
    · -- what is on the way to `dir` is there already
      have hway : r <+: p := (List.nil_append q ▸ hway).trans hq
      rcases List.prefix_or_prefix_of_prefix hway hp with hover | hbelow
      · obtain ⟨rest, rfl⟩ := hover
        by_cases hrest : rest = []
        · rw [hrest, List.append_nil] at hdir
          rw [hdir] at hr
          cases hr
        · rw [FileTree.entry_of_append hrest (by rw [hdir]; exact Option.some_ne_none _)] at hr
          cases hr
      · exact hbelow

/-- Writing below a directory lets the tree grow there only. -/
theorem GrowsBelow.writeFile (h : GrowsBelow dir t₀ t) (hempty : t₀.names dir = [])
    (hp : dir <+: p) (hne : p ≠ dir) {bytes : List UInt8}
    (hmade : t.writeFile p bytes = some t') : GrowsBelow dir t₀ t' := by
  obtain ⟨-, hkept⟩ := FileTree.writeFile_eq_some hmade
  obtain ⟨rest, rfl⟩ := hp
  have hfresh : t₀.entry (dir ++ rest) = none :=
    FileTree.entry_of_names_eq_nil hempty fun hrest => hne (by rw [hrest, List.append_nil])
  constructor
  · intro q hq
    by_cases hqp : q = dir ++ rest
    · exact absurd hfresh (hqp ▸ hq)
    · exact (hkept q hqp).trans (h.kept q hq)
  · intro q hq hq'
    by_cases hqp : q = dir ++ rest
    · exact hqp ▸ List.prefix_append _ _
    · exact h.below q hq (hkept q hqp ▸ hq')

/-- Calls below an empty directory leave all else as it is, wherever they are interrupted. -/
theorem Performs.grows (hperforms : Performs t calls t' completed)
    (hdir : t₀.entry dir = some .directory) (hempty : t₀.names dir = [])
    (hcalls : ∀ call ∈ calls, call.IsBelow dir) (h : GrowsBelow dir t₀ t) :
    GrowsBelow dir t₀ t' := by
  induction hperforms with
  | nil t => exact h
  | @cons t t' t'' call calls completed hrun hrest ih =>
    obtain ⟨hcall, hcalls⟩ := List.forall_mem_cons.mp hcalls
    refine ih hcalls ?_
    -- a call that was interrupted has left a part of what it makes
    cases call with
    | directory p => exact h.makeDirectory hdir List.prefix_rfl hcall hrun
    | file p bytes => exact h.writeFile hempty hcall.1 hcall.2 hrun
  | @interrupted t t' call calls hleaves =>
    have hcall := hcalls call List.mem_cons_self
    cases call with
    | directory p =>
      obtain ⟨q, hq, hmade⟩ := hleaves
      exact h.makeDirectory hdir hq hcall hmade
    | file p bytes =>
      rcases hleaves with rfl | ⟨bytes, hmade⟩
      · exact h
      · exact h.writeFile hempty hcall.1 hcall.2 hmade

end Growing

/-! ## Files written below a directory -/

/-- The calls that write files below a directory, each after the directory it is in. -/
def writeCalls (dir : AbsolutePath) (files : List (List JsString × List UInt8)) : List MakeCall :=
  files.flatMap fun file =>
    [.directory (dir ++ file.1).dropLast, .file (dir ++ file.1) file.2]

/-- The files of a tree in which files were written below a directory. -/
def writtenBelow (dir : AbsolutePath) (files : List (List JsString × List UInt8))
    (fs : FileSystem) : FileSystem :=
  files.foldl (fun fs file => Function.update fs (dir ++ file.1) (some file.2)) fs

/-- The paths lead to different files, none of which another one would have to be in. -/
def Apart (files : List (List JsString × List UInt8)) : Prop :=
  (∀ file ∈ files, file.1 ≠ []) ∧ files.Pairwise fun f g => ¬f.1 <+: g.1 ∧ ¬g.1 <+: f.1

section Writing

variable {t₀ t t' : FileTree} {dir : AbsolutePath} {files done : List (List JsString × List UInt8)}

/-- All the calls that write the files are below the directory. -/
theorem isBelow_of_mem_writeCalls (hne : ∀ file ∈ files, file.1 ≠ []) :
    ∀ call ∈ writeCalls dir files, call.IsBelow dir := by
  intro call hcall
  obtain ⟨file, hfile, hcall⟩ := List.mem_flatMap.mp hcall
  have hrest := hne file hfile
  rcases List.mem_pair.mp hcall with rfl | rfl
  · change dir <+: (dir ++ file.1).dropLast
    rw [List.dropLast_append_of_ne_nil hrest]
    exact List.prefix_append _ _
  · exact ⟨List.prefix_append _ _, by simpa [MakeCall.IsBelow] using hrest⟩

/-- Making a directory changes no file. -/
theorem files_of_makeDirectory {p : AbsolutePath} (h : t.makeDirectory p = some t') :
    t'.files = t.files := by
  funext q
  rcases (FileTree.makeBelow_eq_some h).1 q with hsame | ⟨hnone, hmade, -⟩
  · simp only [FileTree.files, hsame]
  · simp only [FileTree.files, hnone, hmade]

/-- Writing a file changes that file only. -/
theorem files_of_writeFile {p : AbsolutePath} {bytes : List UInt8}
    (h : t.writeFile p bytes = some t') : t'.files = Function.update t.files p (some bytes) := by
  obtain ⟨hwritten, hkept⟩ := FileTree.writeFile_eq_some h
  funext q
  by_cases hq : q = p
  · subst hq
    rw [Function.update_self, FileTree.files, hwritten]
  · rw [Function.update_of_ne hq]
    simp only [FileTree.files, hkept q hq]

/-- What has been written when the calls have come to their end. -/
theorem Performs.files_eq (h : Performs t (writeCalls dir files) t' true) :
    t'.files = writtenBelow dir files t.files := by
  induction files generalizing t with
  | nil =>
    cases h
    rfl
  | cons file files ih =>
    rw [writeCalls, List.flatMap_cons, ← writeCalls, List.cons_append] at h
    cases h with
    | cons hmade hrest =>
      cases hrest with
      | cons hwritten hrest =>
        rw [ih hrest, files_of_writeFile hwritten, files_of_makeDirectory hmade]
        rfl

/-- What is below the directory after some files were written there. -/
structure HasWritten (dir : AbsolutePath) (done : List (List JsString × List UInt8))
    (t : FileTree) : Prop where
  here : t.entry dir = some .directory
  files : ∀ rest ≠ [], ∀ bytes, t.entry (dir ++ rest) = some (.file bytes) →
    ∃ file ∈ done, file.1 = rest
  directories : ∀ rest ≠ [], t.entry (dir ++ rest) = some .directory →
    ∃ file ∈ done, rest <+: file.1 ∧ rest ≠ file.1

/-- In an empty directory no file has been written. -/
theorem hasWritten_nil (hdir : t.entry dir = some .directory) (hempty : t.names dir = []) :
    HasWritten dir [] t := by
  refine ⟨hdir, fun rest hrest bytes h => ?_, fun rest hrest h => ?_⟩
  · rw [FileTree.entry_of_names_eq_nil hempty hrest] at h
    cases h
  · rw [FileTree.entry_of_names_eq_nil hempty hrest] at h
    cases h

/-- One more file can be written, and has been. -/
theorem HasWritten.snoc (h : HasWritten dir done t) {file : List JsString × List UInt8}
    (hne : file.1 ≠ []) (hapart : ∀ other ∈ done, ¬other.1 <+: file.1 ∧ ¬file.1 <+: other.1) :
    ∃ t' t'', t.makeDirectory (dir ++ file.1).dropLast = some t' ∧
      t'.writeFile (dir ++ file.1) file.2 = some t'' ∧ HasWritten dir (done ++ [file]) t'' := by
  have hlast : (dir ++ file.1).dropLast = dir ++ file.1.dropLast :=
    List.dropLast_append_of_ne_nil hne
  have hway {taken : List JsString} (htaken : taken <+: file.1.dropLast) :
      taken <+: file.1 ∧ taken ≠ file.1 := by
    refine ⟨htaken.trans (List.dropLast_prefix _), fun heq => ?_⟩
    have hlength := htaken.length_le
    rw [heq, List.length_dropLast] at hlength
    have hpos := List.length_pos_iff.mpr hne
    omega
  -- no file is on the way
  have hfree : ∀ taken, taken <+: dir ++ file.1.dropLast → ∀ bytes,
      t.entry ([] ++ taken) ≠ some (.file bytes) := by
    intro taken htaken bytes hfile
    rw [List.nil_append] at hfile
    rcases List.prefix_or_prefix_of_prefix htaken (List.prefix_append _ _) with hover | hbelow
    · obtain ⟨rest, rfl⟩ := hover
      by_cases hrest : rest = []
      · have hhere := h.here
        rw [hrest, List.append_nil, hfile] at hhere
        cases hhere
      · rw [FileTree.entry_of_append hrest (by rw [h.here]; exact Option.some_ne_none _)] at hfile
        cases hfile
    · obtain ⟨rest, rfl⟩ := hbelow
      by_cases hrest : rest = []
      · rw [hrest, List.append_nil, h.here] at hfile
        cases hfile
      · obtain ⟨other, hother, rfl⟩ := h.files rest hrest bytes hfile
        have hprefix := (hway ((List.prefix_append_right_inj dir).mp htaken)).1
        exact (hapart other hother).1 hprefix
  obtain ⟨t', hmade⟩ := FileTree.exists_makeBelow t.root hfree
  obtain ⟨hchanged, hparent⟩ := FileTree.makeBelow_eq_some hmade
  have hparent := hparent t.root
  rw [List.nil_append] at hparent
  have hchanged (rest : List JsString) : t'.entry (dir ++ rest) = t.entry (dir ++ rest) ∨
      (t'.entry (dir ++ rest) = some .directory ∧ rest <+: file.1 ∧ rest ≠ file.1) := by
    rcases hchanged (dir ++ rest) with hsame | ⟨-, hdirectory, htaken⟩
    · exact .inl hsame
    · rw [List.nil_append] at htaken
      exact .inr ⟨hdirectory, hway ((List.prefix_append_right_inj dir).mp htaken)⟩
  have hnot : t'.entry (dir ++ file.1) ≠ some .directory := by
    intro hdirectory
    rcases hchanged file.1 with hsame | ⟨-, -, hne⟩
    · obtain ⟨other, hother, hprefix, -⟩ := h.directories file.1 hne (hsame ▸ hdirectory)
      exact (hapart other hother).2 hprefix
    · exact hne rfl
  obtain ⟨t'', hwritten⟩ : ∃ t'', t'.writeFile (dir ++ file.1) file.2 = some t'' :=
    FileTree.exists_writeFile (List.append_ne_nil_of_right_ne_nil dir hne)
      (hlast.symm ▸ hparent) hnot
  refine ⟨t', t'', hlast.symm ▸ hmade, hwritten, ?_⟩
  obtain ⟨hthere, hkept⟩ := FileTree.writeFile_eq_some hwritten
  have hkept {rest : List JsString} (hrest : rest ≠ file.1) :
      t''.entry (dir ++ rest) = t'.entry (dir ++ rest) :=
    hkept _ fun heq => hrest (List.append_cancel_left heq)
  constructor
  · have hhere := h.here
    rw [← List.append_nil dir] at hhere ⊢
    rw [hkept (Ne.symm hne)]
    rcases hchanged [] with hsame | ⟨hdirectory, -⟩
    · exact hsame.trans hhere
    · exact hdirectory
  · intro rest hrest bytes hfile
    by_cases heq : rest = file.1
    · exact ⟨file, List.mem_append_right _ List.mem_cons_self, heq.symm⟩
    · rw [hkept heq] at hfile
      rcases hchanged rest with hsame | ⟨hdirectory, -⟩
      · obtain ⟨other, hother, hpath⟩ := h.files rest hrest bytes (hsame ▸ hfile)
        exact ⟨other, List.mem_append_left _ hother, hpath⟩
      · rw [hdirectory] at hfile
        cases hfile
  · intro rest hrest hdirectory
    by_cases heq : rest = file.1
    · rw [heq, hthere] at hdirectory
      cases hdirectory
    · rw [hkept heq] at hdirectory
      rcases hchanged rest with hsame | ⟨-, hprefix⟩
      · obtain ⟨other, hother, hpath⟩ := h.directories rest hrest (hsame ▸ hdirectory)
        exact ⟨other, List.mem_append_left _ hother, hpath⟩
      · exact ⟨file, List.mem_append_right _ List.mem_cons_self, hprefix⟩

/-- Files that are apart can all be written to an empty directory. -/
theorem exists_performs (hdir : t.entry dir = some .directory) (hempty : t.names dir = [])
    (happart : Apart files) : ∃ t', Performs t (writeCalls dir files) t' true := by
  obtain ⟨hne, hpairwise⟩ := happart
  -- what is written comes after what has been
  have hgo (done files : List (List JsString × List UInt8)) (t : FileTree)
      (h : HasWritten dir done t) (hne : ∀ file ∈ files, file.1 ≠ [])
      (hpairwise : (done ++ files).Pairwise fun f g => ¬f.1 <+: g.1 ∧ ¬g.1 <+: f.1) :
      ∃ t', Performs t (writeCalls dir files) t' true := by
    induction files generalizing done t with
    | nil => exact ⟨t, .nil t⟩
    | cons file files ih =>
      obtain ⟨hfile, hne⟩ := List.forall_mem_cons.mp hne
      have hbefore := (List.pairwise_append.mp hpairwise).2.2
      obtain ⟨t', t'', hmade, hwritten, hdone⟩ :=
        h.snoc hfile fun other hother => hbefore other hother file List.mem_cons_self
      obtain ⟨last, hrest⟩ := ih (done ++ [file]) t'' hdone hne (by simpa using hpairwise)
      exact ⟨last, .cons hmade (.cons hwritten hrest)⟩
  exact hgo [] files t (hasWritten_nil hdir hempty) hne hpairwise

end Writing

end Node
