import TdExport.Export.SchemaFiles.OnDisk

/-!
# Files on a plain file system

On a file system that takes names for one only when they are equal up to case, and without hard
links, every schema gets the file with its own name.
-/

namespace TdExport

open Core

variable {ε κ ι : Type} [DecidableEq κ] [DecidableEq ι]

/-- The file system takes no names for one that differ in more than case. -/
def DiscernsCase (fs : FileSystem κ ι) (u : CaseTables) : Prop :=
  ∀ a b, fs.fold a = fs.fold b → u.toLowercase a = u.toLowercase b

variable (platform : Platform) {fs : FileSystem κ ι} (o : Overflow) (hash : Str → UInt64)
  (source extn : Str) {disk : Disk κ ι} {st : OpenFiles ε κ ι} (schema : Str) {filename : Str}
  (turns : ℕ)

/-- A name that stands for no open file is opened at once. -/
lemma openSchemaFileOn_eq (h : Emptied fs disk st) (hdisk : disk.dir.NoLinks)
    (hnew : ∀ e ∈ st.files.entries, fs.fold e.2.1 ≠ fs.fold filename) :
    openSchemaFileOn platform fs o hash source extn turns st (schema, filename) = some {
      disk := (fs.create st.disk filename).2
      opened := (fileId platform (fs.create st.disk filename).1.file).elim st.opened
        fun id => insert id st.opened
      files := st.files.insert schema (filename, (fs.create st.disk filename).1)
      warnings := st.warnings } := by
  have hnot : ¬ isOpened platform st.opened (firstOpen fs st filename).file.file = true := by
    intro hopened
    have htrying := Trying.firstOpen h filename
    have hmem : (firstOpen fs st filename).file.file ∈ st.opened := by
      cases platform with
      | other => cases hopened
      | unix => exact isOpened_unix.mp hopened
    obtain ⟨e, he, hfile⟩ := h.exists_entry _ hmem
    apply hnew e he
    apply htrying.noLinks (h.noLinks hdisk) _ _ _ _ htrying.resolve_eq
    rw [← hfile]
    exact htrying.extends_dir _ _ (h.resolve_eq e he)
  have hcount : o.count (fun s => isOpened platform st.opened s.file.file = true)
      (reopenOn fs hash source extn schema) turns (firstOpen fs st filename) =
        some (firstOpen fs st filename, 2) := Overflow.count_of_not hnot
  rw [openSchemaFileOn, hcount]
  rfl

/-- Names that differ in more than case are all opened as they are, without a warning. -/
lemma exists_foldlM_openSchemaFileOn (ws : List (Warning ε)) (hdisk : disk.dir.NoLinks)
    {names : List (Str × Str)} (hfst : (names.map Prod.fst).Nodup)
    (hnodup : (names.map fun p => fs.fold p.2).Nodup) :
    ∃ st : OpenFiles ε κ ι, (∀ turns, names.foldlM
        (openSchemaFileOn platform fs o hash source extn turns) { disk, warnings := ws } =
          some st) ∧
      Emptied fs disk st ∧ st.warnings = ws ∧
      (st.files.entries.map fun e => (e.1, e.2.1)).Perm names := by
  induction names using List.reverseRecOn with
  | nil => exact ⟨_, fun turns => rfl, .start disk ws, rfl, .refl _⟩
  | append_singleton names entry ih =>
    obtain ⟨schema, filename⟩ := entry
    rw [List.map_append] at hfst hnodup
    obtain ⟨st, hst, hemptied, hws, hperm⟩ := ih hfst.of_append_left hnodup.of_append_left
    have hschema : schema ∉ st.files.keys := by
      have hkeys : st.files.keys.Perm (names.map Prod.fst) := by
        simpa [SortedMap.keys, Function.comp_def] using hperm.map Prod.fst
      rw [hkeys.mem_iff]
      exact fun hmem => (List.nodup_append.mp hfst).2.2 _ hmem _ (by simp) rfl
    have hnew : ∀ e ∈ st.files.entries, fs.fold e.2.1 ≠ fs.fold filename := by
      intro e he heq
      have hmem : (e.1, e.2.1) ∈ names := hperm.mem_iff.mp (List.mem_map_of_mem he)
      exact (List.nodup_append.mp hnodup).2.2 _ (List.mem_map_of_mem hmem) _ (by simp) heq
    have hstep := fun turns => openSchemaFileOn_eq platform o hash source extn schema turns hemptied
      hdisk hnew
    refine ⟨_, fun turns => ?_, (hemptied.step hschema (hstep 0)).1, hws, ?_⟩
    · rw [List.foldlM_append, hst turns, Option.bind_eq_bind, Option.bind_some, List.foldlM_cons,
        hstep turns]
      rfl
    · refine ((SortedMap.entries_insert_perm _ hschema).map fun e => (e.1, e.2.1)).trans ?_
      exact (hperm.cons (schema, filename)).trans (List.perm_append_singleton _ _).symm

/-- What is found under a name after the files were opened. -/
lemma Emptied.read_eq (h : Emptied fs disk st) (hdisk : disk.dir.NoLinks) {k : κ}
    (hk : ∀ e ∈ st.files.entries, fs.fold e.2.1 ≠ k) : st.disk.read k = disk.read k := by
  have hdir := h.resolve_of_ne k hk
  rw [Disk.read, Disk.read, hdir]
  cases hi : disk.dir.resolve k with
  | none => rfl
  | some i =>
    rw [Option.map_some, Option.map_some, h.contents_eq, if_neg]
    rintro ⟨e, he, rfl⟩
    exact hk e he (h.noLinks hdisk _ _ _ (h.resolve_eq e he) (hdir.trans hi))

lemma Emptied.read_name (h : Emptied fs disk st) {e : Str × Str × Handle ι}
    (he : e ∈ st.files.entries) : st.disk.read (fs.fold e.2.1) = some [] := by
  rw [Disk.read, h.resolve_eq e he, Option.map_some, h.contents_eq, if_pos ⟨e, he, rfl⟩]

end TdExport
