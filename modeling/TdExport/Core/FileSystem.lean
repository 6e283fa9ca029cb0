import TdExport.Core.Str

/-!
# Directories

A directory maps names to inodes. The file system may take different names for one, and different
names may stand for one inode. Opening a name for writing gives the inode that it stands for, or
that of a new file.
-/

namespace Core

/-- The entries of a directory, by the names that the file system tells apart. -/
abbrev Directory (κ ι : Type*) := List (κ × ι)

structure FileSystem (κ ι : Type*) where
  /-- The name, as the file system sees it. -/
  fold : Str → κ
  /-- The inode of a new file, given those in use. -/
  alloc : List ι → ι
  alloc_notMem : ∀ used, alloc used ∉ used

variable {κ ι : Type*} [DecidableEq κ]

namespace Directory

/-- The inode that a name stands for. -/
def resolve (dir : Directory κ ι) (k : κ) : Option ι := List.lookup k dir

variable {dir dir' : Directory κ ι} {k : κ} {i : ι}

lemma resolve_cons_self : resolve ((k, i) :: dir) k = some i := List.lookup_cons_self

lemma resolve_cons_of_ne {k' : κ} (h : k' ≠ k) : resolve ((k, i) :: dir) k' = dir.resolve k' := by
  rw [resolve, List.lookup_cons, beq_eq_false_iff_ne.mpr h]
  rfl

/-- Every name of `dir` stands for the same inode in `dir'`. -/
def Extends (dir' dir : Directory κ ι) : Prop :=
  ∀ k i, dir.resolve k = some i → dir'.resolve k = some i

lemma mem_of_resolve (h : dir.resolve k = some i) : (k, i) ∈ dir := by
  induction dir with
  | nil => cases h
  | cons e dir ih =>
    obtain ⟨k', j⟩ := e
    by_cases hk : k = k'
    · subst hk
      rw [resolve_cons_self] at h
      rw [← Option.some_inj.mp h]
      exact List.mem_cons_self
    · rw [resolve_cons_of_ne hk] at h
      exact List.mem_cons_of_mem _ (ih h)

/-- A directory all of whose names stand for one inode. -/
lemma resolve_of_forall (h : ∀ e ∈ dir, e.2 = i) (hk : k ∈ dir.map Prod.fst) :
    dir.resolve k = some i := by
  induction dir with
  | nil => exact absurd hk List.not_mem_nil
  | cons e dir ih =>
    obtain ⟨k', j⟩ := e
    obtain ⟨hj, hdir⟩ := List.forall_mem_cons.mp h
    by_cases hne : k' = k
    · rw [hne, resolve_cons_self]
      exact congrArg some hj
    · rw [resolve_cons_of_ne (Ne.symm hne)]
      exact ih hdir ((List.mem_cons.mp hk).resolve_left (Ne.symm hne))

end Directory

namespace FileSystem

variable (fs : FileSystem κ ι) (dir : Directory κ ι) (name : Str)

/-- Open `name` for writing. -/
def openFile : ι × Directory κ ι :=
  match dir.resolve (fs.fold name) with
  | some i => (i, dir)
  | none => (fs.alloc (dir.map Prod.snd), (fs.fold name, fs.alloc (dir.map Prod.snd)) :: dir)

variable {fs dir name} {i : ι}

lemma openFile_of_resolve (h : dir.resolve (fs.fold name) = some i) :
    fs.openFile dir name = (i, dir) := by
  rw [openFile, h]

lemma openFile_of_resolve_eq_none (h : dir.resolve (fs.fold name) = none) :
    fs.openFile dir name = (fs.alloc (dir.map Prod.snd),
      (fs.fold name, fs.alloc (dir.map Prod.snd)) :: dir) := by
  rw [openFile, h]

/-- The name stands for the inode that was opened. -/
lemma resolve_openFile :
    (fs.openFile dir name).2.resolve (fs.fold name) = some (fs.openFile dir name).1 := by
  cases h : dir.resolve (fs.fold name) with
  | none => rw [openFile_of_resolve_eq_none h, Directory.resolve_cons_self]
  | some i => rw [openFile_of_resolve h, h]

lemma openFile_extends : (fs.openFile dir name).2.Extends dir := by
  intro k i hk
  cases h : dir.resolve (fs.fold name) with
  | none =>
    have hne : k ≠ fs.fold name := by
      rintro rfl
      rw [h] at hk
      cases hk
    rw [openFile_of_resolve_eq_none h, Directory.resolve_cons_of_ne hne]
    exact hk
  | some j => rwa [openFile_of_resolve h]

/-- A file that is in use is opened when its name stands for it, and then nothing changes. -/
lemma openFile_of_mem {used : Finset ι} (hused : ∀ i ∈ used, i ∈ dir.map Prod.snd)
    (h : (fs.openFile dir name).1 ∈ used) :
    dir.resolve (fs.fold name) = some (fs.openFile dir name).1 ∧
      (fs.openFile dir name).2 = dir := by
  cases hresolve : dir.resolve (fs.fold name) with
  | none =>
    rw [openFile_of_resolve_eq_none hresolve] at h
    exact absurd (hused _ h) (fs.alloc_notMem _)
  | some i =>
    rw [openFile_of_resolve hresolve]
    exact ⟨rfl, rfl⟩

lemma length_openFile_le : (fs.openFile dir name).2.length ≤ dir.length + 1 := by
  cases h : dir.resolve (fs.fold name) with
  | none => rw [openFile_of_resolve_eq_none h, List.length_cons]
  | some i =>
    rw [openFile_of_resolve h]
    exact Nat.le_succ _

end FileSystem

end Core
