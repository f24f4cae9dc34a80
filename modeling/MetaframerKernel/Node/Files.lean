import MetaframerKernel.Js.Utf8

/-!
# Paths and files

The functions of `node:path` on POSIX paths, and a file system that texts are written to and read
from. An absolute path is given by its names, root first.

## Main definitions

* `resolve`, `relative`: the functions of those names;
* `FileSystem.writeFiles`, `FileSystem.readText`: a map of texts written to a directory, and a text
  read back.

## Main results

* `relative_resolve`: a path of plain names resolved in a directory is itself relative to it;
* `readText_writeFiles`: a text written is read back unchanged.
-/

namespace Node

open Js

/-! ## Paths -/

/-- An absolute path: the names on the way from the root. -/
abbrev AbsolutePath : Type := List JsString

/-- The separator. -/
def slash : CodeUnit := 0x2F

/-- `path.isAbsolute` -/
def isAbsolute (p : JsString) : Bool := p.head? = some slash

/-- One step of a path: empty names and `.` stay, `..` goes up, and stays at the root. -/
def enter (dir : AbsolutePath) (name : JsString) : AbsolutePath :=
  if name = [] ∨ name = lit "." then dir
  else if name = lit ".." then dir.dropLast
  else dir ++ [name]

/-- `path.resolve(dir, p)`, for an absolute directory. -/
def resolve (dir : AbsolutePath) (p : JsString) : AbsolutePath :=
  (p.splitOn slash).foldl enter (if isAbsolute p then [] else dir)

/-- The names that lead from one directory to another. -/
def relativeNames : AbsolutePath → AbsolutePath → List JsString
  | a :: dir, b :: target =>
      if a = b then relativeNames dir target
      else lit ".." :: (dir.map (fun _ => lit "..") ++ b :: target)
  | dir, target => dir.map (fun _ => lit "..") ++ target

/-- `path.relative` -/
def relative (dir target : AbsolutePath) : JsString :=
  [slash].intercalate (relativeNames dir target)

/-- A name that is not one of the special steps. -/
def IsName (name : JsString) : Prop :=
  name ≠ [] ∧ name ≠ lit "." ∧ name ≠ lit ".." ∧ slash ∉ name

/-- A name leads to the entry of that name. -/
theorem enter_of_isName {name : JsString} (h : IsName name) (dir : AbsolutePath) :
    enter dir name = dir ++ [name] := by
  obtain ⟨hne, hdot, hup, -⟩ := h
  rw [enter, if_neg (by simp [hne, hdot]), if_neg hup]

/-- The path of a list of names. -/
def pathOf (names : List JsString) : JsString := [slash].intercalate names

/-- A path of names is relative. -/
theorem isAbsolute_pathOf {names : List JsString} (h : ∀ name ∈ names, IsName name) :
    isAbsolute (pathOf names) = false := by
  rw [isAbsolute, decide_eq_false_iff_not]
  intro habsolute
  match names, h with
  | [], _ => cases habsolute
  | name :: names, h =>
    obtain ⟨hne, -, -, hslash⟩ := h name List.mem_cons_self
    obtain ⟨u, rest, rfl⟩ := List.exists_cons_of_ne_nil hne
    have hhead : (pathOf ((u :: rest) :: names)).head? = some u := by
      cases names <;> rfl
    rw [hhead, Option.some_inj] at habsolute
    exact hslash (habsolute ▸ List.mem_cons_self)

/-- Plain names lead down from the directory. -/
theorem resolve_pathOf {names : List JsString} (hne : names ≠ []) (h : ∀ name ∈ names, IsName name)
    (dir : AbsolutePath) : resolve dir (pathOf names) = dir ++ names := by
  have hfold (names : List JsString) (h : ∀ name ∈ names, IsName name) (dir : AbsolutePath) :
      names.foldl enter dir = dir ++ names := by
    induction names generalizing dir with
    | nil => simp
    | cons name names ih =>
      obtain ⟨hname, hnames⟩ := List.forall_mem_cons.mp h
      rw [List.foldl_cons, enter_of_isName hname, ih hnames, List.append_assoc,
        List.singleton_append]
  have hslash : ∀ name ∈ names, slash ∉ name := fun name hname => (h name hname).2.2.2
  rw [resolve, isAbsolute_pathOf h, pathOf, List.splitOn_intercalate slash hslash hne,
    hfold names h]
  rfl

/-- What is below a directory is named by the rest of its path. -/
theorem relativeNames_append (dir names : AbsolutePath) :
    relativeNames dir (dir ++ names) = names := by
  induction dir with
  | nil => cases names <;> rfl
  | cons a dir ih => rw [List.cons_append, relativeNames, if_pos rfl, ih]

/-- A path of plain names is itself, relative to the directory it is resolved in. -/
theorem relative_resolve {names : List JsString} (hne : names ≠ [])
    (h : ∀ name ∈ names, IsName name) (dir : AbsolutePath) :
    relative dir (resolve dir (pathOf names)) = pathOf names := by
  rw [resolve_pathOf hne h, relative, relativeNames_append, pathOf]

/-! ## Files -/

/-- The files that can be read, by path. -/
abbrev FileSystem : Type := AbsolutePath → Option (List UInt8)

namespace FileSystem

/-- `readFile(path, "utf8")`, `none` where it is rejected. -/
def readText (fs : FileSystem) (p : AbsolutePath) : Option (List Char) := (fs p).map utf8Decode

/-- A map of texts written to a directory, each under its path. -/
def writeFiles (dir : AbsolutePath) (files : List (JsString × List Char)) (fs : FileSystem) :
    FileSystem :=
  files.foldl (fun fs file => Function.update fs (resolve dir file.1) (some (utf8Encode file.2))) fs

/-- A text written is read back unchanged. -/
theorem readText_writeFiles {dir : AbsolutePath} {files : List (JsString × List Char)}
    (h : (files.map fun file => resolve dir file.1).Nodup) (fs : FileSystem)
    {file : JsString × List Char} (hfile : file ∈ files) :
    (writeFiles dir files fs).readText (resolve dir file.1) = some file.2 := by
  -- no later file is written over it
  have hkeep (files : List (JsString × List Char)) (fs : FileSystem) (p : AbsolutePath)
      (hp : p ∉ files.map fun file => resolve dir file.1) : writeFiles dir files fs p = fs p := by
    induction files generalizing fs with
    | nil => rfl
    | cons file files ih =>
      rw [List.map_cons, List.mem_cons, not_or] at hp
      rw [writeFiles, List.foldl_cons, ← writeFiles, ih _ hp.2, Function.update_of_ne hp.1]
  induction files generalizing fs with
  | nil => cases hfile
  | cons first files ih =>
    obtain ⟨hfresh, hnodup⟩ := List.nodup_cons.mp h
    rw [writeFiles, List.foldl_cons, ← writeFiles]
    rcases List.mem_cons.mp hfile with rfl | hfile
    · rw [readText, hkeep files _ _ hfresh, Function.update_self, Option.map_some,
        utf8Decode_utf8Encode]
    · exact ih hnodup _ hfile

/-- Texts under different paths can be written in any order. -/
theorem writeFiles_perm {dir : AbsolutePath} {files files' : List (JsString × List Char)}
    (hperm : files.Perm files') (h : (files.map fun file => resolve dir file.1).Nodup)
    (fs : FileSystem) : writeFiles dir files fs = writeFiles dir files' fs := by
  refine hperm.foldl_eq' (fun f hf g hg fs => ?_) fs
  by_cases heq : f = g
  · rw [heq]
  · exact Function.update_comm (fun hpath => heq (List.inj_on_of_nodup_map h hf hg hpath)) _ _ fs

end FileSystem

end Node
