import TdExport.Core.FileSystem

/-!
# Files with contents

A directory together with the texts of its files. A file is written through a handle, which knows
the place at which it writes next; opening a file for writing empties it, and removing a name leaves
the file that it stood for to its other names. Without hard links this is a map from names to
texts.
-/

namespace Core

structure Disk (κ ι : Type*) where
  dir : Directory κ ι
  contents : ι → Str

/-- A file that is open for writing. Places in a text are counted in characters. -/
structure Handle (ι : Type*) where
  file : ι
  position : ℕ := 0
  deriving DecidableEq

/-- Put `text` at a place; a gap before it is filled with NUL. -/
def overwrite (old : Str) (position : ℕ) (text : Str) : Str :=
  old.take position ++ List.replicate (position - old.length) (Char.ofNat 0) ++ text ++
    old.drop (position + text.length)

/-- At the end nothing is overwritten. -/
@[simp] lemma overwrite_length (old text : Str) :
    overwrite old old.length text = old ++ text := by
  simp [overwrite]

section

variable {κ ι : Type*} [DecidableEq κ] [DecidableEq ι]

namespace Disk

/-- Write to the file of a handle. -/
def write (disk : Disk κ ι) (handle : Handle ι) (text : Str) : Handle ι × Disk κ ι :=
  (⟨handle.file, handle.position + text.length⟩,
    ⟨disk.dir, Function.update disk.contents handle.file
      (overwrite (disk.contents handle.file) handle.position text)⟩)

/-- What is found under a name. -/
def read (disk : Disk κ ι) (k : κ) : Option Str := (disk.dir.resolve k).map disk.contents

end Disk

namespace FileSystem

variable (fs : FileSystem κ ι)

/-- Open a name for writing and empty its file. -/
def create (disk : Disk κ ι) (name : Str) : Handle ι × Disk κ ι :=
  let opened := fs.openFile disk.dir name
  (⟨opened.1, 0⟩, ⟨opened.2, Function.update disk.contents opened.1 []⟩)

@[simp] lemma file_create (disk : Disk κ ι) (name : Str) :
    (fs.create disk name).1.file = (fs.openFile disk.dir name).1 := rfl

@[simp] lemma position_create (disk : Disk κ ι) (name : Str) :
    (fs.create disk name).1.position = 0 := rfl

@[simp] lemma contents_create (disk : Disk κ ι) (name : Str) (i : ι) :
    (fs.create disk name).2.contents i =
      if i = (fs.create disk name).1.file then [] else disk.contents i :=
  Function.update_apply _ _ _ _

@[simp] lemma dir_create (disk : Disk κ ι) (name : Str) :
    (fs.create disk name).2.dir = (fs.openFile disk.dir name).2 := rfl

/-- Remove a name; nothing happens when there is no such name. -/
def remove (disk : Disk κ ι) (name : Str) : Disk κ ι :=
  { disk with dir := disk.dir.filter fun e => e.1 ≠ fs.fold name }

end FileSystem

end

/-! ### Directories without hard links -/

section

variable {κ ι : Type*} [DecidableEq κ]

namespace Directory

variable {dir : Directory κ ι} {k k' : κ} {i : ι}

/-- No two names stand for one file. -/
def NoLinks (dir : Directory κ ι) : Prop :=
  ∀ k k' i, dir.resolve k = some i → dir.resolve k' = some i → k = k'

lemma resolve_filter_self (dir : Directory κ ι) (k : κ) :
    resolve (dir.filter fun e => e.1 ≠ k) k = none := by
  induction dir with
  | nil => rfl
  | cons e dir ih =>
    obtain ⟨k', i⟩ := e
    by_cases he : k' = k
    · rw [List.filter_cons_of_neg (by simpa using he), ih]
    · rw [List.filter_cons_of_pos (by simpa using he), resolve_cons_of_ne (Ne.symm he), ih]

lemma resolve_filter_of_ne (h : k' ≠ k) (dir : Directory κ ι) :
    resolve (dir.filter fun e => e.1 ≠ k) k' = dir.resolve k' := by
  induction dir with
  | nil => rfl
  | cons e dir ih =>
    obtain ⟨l, i⟩ := e
    by_cases he : l = k
    · rw [List.filter_cons_of_neg (by simpa using he), ih, resolve_cons_of_ne (he ▸ h)]
    · rw [List.filter_cons_of_pos (by simpa using he)]
      by_cases hk : l = k'
      · rw [hk, resolve_cons_self, resolve_cons_self]
      · rw [resolve_cons_of_ne (Ne.symm hk), resolve_cons_of_ne (Ne.symm hk), ih]

lemma NoLinks.filter (h : dir.NoLinks) (k : κ) :
    NoLinks (dir.filter fun e => e.1 ≠ k) := by
  have hresolve : ∀ {l i}, resolve (dir.filter fun e => e.1 ≠ k) l = some i →
      dir.resolve l = some i := by
    intro l i hl
    by_cases hk : l = k
    · rw [hk, resolve_filter_self] at hl
      cases hl
    · rwa [resolve_filter_of_ne hk] at hl
  intro l l' i hl hl'
  exact h l l' i (hresolve hl) (hresolve hl')

end Directory

namespace FileSystem

variable {fs : FileSystem κ ι} {dir : Directory κ ι} {name : Str} {k : κ}

lemma resolve_openFile_of_ne (h : k ≠ fs.fold name) :
    (fs.openFile dir name).2.resolve k = dir.resolve k := by
  cases hresolve : dir.resolve (fs.fold name) with
  | none =>
    rw [openFile_of_resolve_eq_none hresolve]
    exact Directory.resolve_cons_of_ne h
  | some i => rw [openFile_of_resolve hresolve]

/-- The file that is opened has no other name. -/
lemma resolve_ne_openFile (hdir : dir.NoLinks) (h : k ≠ fs.fold name) :
    dir.resolve k ≠ some (fs.openFile dir name).1 := by
  intro hk
  cases hresolve : dir.resolve (fs.fold name) with
  | none =>
    rw [openFile_of_resolve_eq_none hresolve] at hk
    exact fs.alloc_notMem _ (List.mem_map_of_mem (f := Prod.snd) (Directory.mem_of_resolve hk))
  | some i =>
    rw [openFile_of_resolve hresolve] at hk
    exact h (hdir _ _ _ hk hresolve)

lemma noLinks_openFile (hdir : dir.NoLinks) (name : Str) : (fs.openFile dir name).2.NoLinks := by
  have hother : ∀ {k i}, k ≠ fs.fold name → (fs.openFile dir name).2.resolve k = some i →
      (fs.openFile dir name).2.resolve (fs.fold name) ≠ some i := by
    intro k i hk hi heq
    rw [resolve_openFile_of_ne hk] at hi
    rw [resolve_openFile] at heq
    exact resolve_ne_openFile hdir hk (hi.trans heq.symm)
  intro k k' i hk hk'
  by_cases h : k = fs.fold name
  · by_cases h' : k' = fs.fold name
    · exact h.trans h'.symm
    · exact absurd (h ▸ hk) (hother h' hk')
  · by_cases h' : k' = fs.fold name
    · exact absurd (h' ▸ hk') (hother h hk)
    · rw [resolve_openFile_of_ne h] at hk
      rw [resolve_openFile_of_ne h'] at hk'
      exact hdir k k' i hk hk'

end FileSystem

end

/-! ### The map from names to texts -/

section

variable {κ ι : Type*} [DecidableEq κ] [DecidableEq ι] {fs : FileSystem κ ι} {disk : Disk κ ι}
  {name text : Str} {k : κ} {handle : Handle ι}

namespace Disk

/-- Writing changes the file of one name. -/
lemma read_write (hdisk : disk.dir.NoLinks) (hk : disk.dir.resolve k = some handle.file) (l : κ) :
    (disk.write handle text).2.read l =
      if l = k then some (overwrite (disk.contents handle.file) handle.position text)
      else disk.read l := by
  simp only [read, write]
  split_ifs with hl
  · rw [hl, hk, Option.map_some, Function.update_self]
  · cases hi : disk.dir.resolve l with
    | none => rfl
    | some i =>
      have hne : i ≠ handle.file := by
        rintro rfl
        exact hl (hdisk _ _ _ hi hk)
      rw [Option.map_some, Option.map_some, Function.update_of_ne hne]

end Disk

namespace FileSystem

lemma read_create (hdisk : disk.dir.NoLinks) (l : κ) :
    (fs.create disk name).2.read l = if l = fs.fold name then some [] else disk.read l := by
  simp only [Disk.read, create]
  split_ifs with hl
  · rw [hl, resolve_openFile, Option.map_some, Function.update_self]
  · rw [resolve_openFile_of_ne hl]
    cases hi : disk.dir.resolve l with
    | none => rfl
    | some i =>
      have hne : i ≠ (fs.openFile disk.dir name).1 := by
        rintro rfl
        exact resolve_ne_openFile hdisk hl hi
      rw [Option.map_some, Option.map_some, Function.update_of_ne hne]

/-- A file that is opened and written has the text. -/
lemma read_create_write (hdisk : disk.dir.NoLinks) (name text : Str) (l : κ) :
    ((fs.create disk name).2.write (fs.create disk name).1 text).2.read l =
      if l = fs.fold name then some text else disk.read l := by
  rw [Disk.read_write (noLinks_openFile hdisk name) resolve_openFile]
  split_ifs with hl
  · rw [contents_create, if_pos rfl, position_create]
    exact congrArg some (overwrite_length [] text)
  · rw [read_create hdisk, if_neg hl]

omit [DecidableEq ι] in
lemma read_remove (l : κ) :
    (fs.remove disk name).read l = if l = fs.fold name then none else disk.read l := by
  rw [Disk.read, Disk.read, remove]
  split_ifs with hl
  · rw [hl, Directory.resolve_filter_self, Option.map_none]
  · rw [Directory.resolve_filter_of_ne hl]

end FileSystem

end

end Core
