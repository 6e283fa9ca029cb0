import TdExport.Core.Disk
import TdExport.Export.SchemaFiles.Distinct
import TdExport.Run.Warnings

/-!
# The files of schemas, with contents and warnings

`create_schema_files` again, with all that it does: it empties every file that it opens, and warns
of names that it has to change. Without contents and warnings it is the function of
`Export.SchemaFiles.Basic`.
-/

namespace TdExport

open Core

/-- The state of the loop that opens a file for a schema. -/
structure ReopeningOn (ε κ ι : Type) where
  name : Str
  file : Handle ι
  disk : Disk κ ι
  warnings : List (Warning ε)

structure OpenFiles (ε κ ι : Type) where
  disk : Disk κ ι
  opened : Finset ι := ∅
  files : SortedMap Str (Str × Handle ι) := ∅
  warnings : List (Warning ε) := []

section

variable {ε κ ι : Type} [DecidableEq κ] [DecidableEq ι]
variable (platform : Platform) (fs : FileSystem κ ι) (u : CaseTables) (o : Overflow)
  (hash : Str → UInt64) (source extn : Str)

/-- The warnings of `schema_filenames`, one for each search that tried a number. -/
def filenameWarnings (searches : List (Str × Str × ℤ)) : List (Warning ε) :=
  searches.filterMap fun p => if 2 < p.2.2 then some (.filenameTaken p.1 p.2.1) else none

/-- Open a file with the next name, and warn. -/
def reopenOn (schema : Str) (s : ReopeningOn ε κ ι) (n : ℤ) : ReopeningOn ε κ ι :=
  let name := schemaFilename hash (schema ++ "~" ++ intStr n) source extn
  let file := fs.create s.disk name
  ⟨name, file.1, file.2, s.warnings ++ [.sameFile schema name]⟩

/-- The file is opened under the name of the schema first. -/
def firstOpen (st : OpenFiles ε κ ι) (filename : Str) : ReopeningOn ε κ ι :=
  let file := fs.create st.disk filename
  ⟨filename, file.1, file.2, st.warnings⟩

def openSchemaFileOn (turns : ℕ) (st : OpenFiles ε κ ι) (entry : Str × Str) :
    Option (OpenFiles ε κ ι) := do
  let (s, _) ← o.count (fun s => isOpened platform st.opened s.file.file)
    (reopenOn fs hash source extn entry.1) turns (firstOpen fs st entry.2)
  return {
    disk := s.disk
    opened := (fileId platform s.file.file).elim st.opened fun id => insert id st.opened
    files := st.files.insert entry.1 (s.name, s.file)
    warnings := s.warnings }

def createSchemaFilesOn (turns : ℕ) (disk : Disk κ ι) (schemas : List Str) :
    Option (OpenFiles ε κ ι) := do
  let searches ← searchNames u o hash source extn turns schemas
  let names := searches.map fun p => (p.1, p.2.1)
  names.foldlM (openSchemaFileOn platform fs o hash source extn turns)
    { disk, warnings := filenameWarnings searches }

/-! ### Without contents and warnings -/

def ReopeningOn.forget (s : ReopeningOn ε κ ι) : Reopening κ ι :=
  ⟨s.name, s.file.file, s.disk.dir⟩

def OpenFiles.forget (st : OpenFiles ε κ ι) : SchemaFiles κ ι :=
  ⟨st.disk.dir, st.opened, st.files.map fun p => (p.1, p.2.file)⟩

variable {platform fs u o hash source extn}

lemma openSchemaFile_forget (turns : ℕ) (st : OpenFiles ε κ ι) (entry : Str × Str) :
    openSchemaFile platform fs o hash source extn turns st.forget entry =
      (openSchemaFileOn platform fs o hash source extn turns st entry).map OpenFiles.forget := by
  have hcount : o.count (fun s => isOpened platform st.opened s.file = true)
      (reopen fs hash source extn entry.1) turns (firstOpen fs st entry.2).forget =
        (o.count (fun s => isOpened platform st.opened s.file.file = true)
          (reopenOn fs hash source extn entry.1) turns (firstOpen fs st entry.2)).map
            fun r => (r.1.forget, r.2) :=
    Overflow.count_map ReopeningOn.forget (fun s => Iff.rfl) fun s n => by
      simp only [reopen, reopenOn, ReopeningOn.forget, FileSystem.file_create,
        FileSystem.dir_create]
  have hstart : (firstOpen fs st entry.2).forget = ⟨entry.2, (fs.openFile st.forget.dir entry.2).1,
      (fs.openFile st.forget.dir entry.2).2⟩ := rfl
  have hopened : st.forget.opened = st.opened := rfl
  rw [hstart] at hcount
  rw [openSchemaFile, openSchemaFileOn, Option.bind_eq_bind, Option.bind_eq_bind, hopened, hcount]
  cases o.count (fun s => isOpened platform st.opened s.file.file = true)
      (reopenOn fs hash source extn entry.1) turns (firstOpen fs st entry.2) with
  | none => rfl
  | some s =>
    simp only [Option.map_some, Option.bind_some, Option.pure_def, OpenFiles.forget,
      SortedMap.map_insert, ReopeningOn.forget]

variable (platform fs u o hash source extn) in
/-- The same names are opened, in the same directory. -/
lemma createSchemaFiles_forget (turns : ℕ) (disk : Disk κ ι) (schemas : List Str) :
    createSchemaFiles platform fs u o hash source extn turns disk.dir schemas =
      (createSchemaFilesOn (ε := ε) platform fs u o hash source extn turns disk schemas).map
        OpenFiles.forget := by
  have hfold : ∀ (names : List (Str × Str)) (st : OpenFiles ε κ ι),
      names.foldlM (openSchemaFile platform fs o hash source extn turns) st.forget =
        (names.foldlM (openSchemaFileOn platform fs o hash source extn turns) st).map
          OpenFiles.forget := by
    intro names
    induction names with
    | nil => exact fun st => rfl
    | cons entry names ih =>
      intro st
      rw [List.foldlM_cons, List.foldlM_cons, openSchemaFile_forget]
      cases openSchemaFileOn platform fs o hash source extn turns st entry with
      | none => rfl
      | some st' => exact ih st'
  rw [createSchemaFiles, createSchemaFilesOn, schemaFilenames]
  cases searchNames u o hash source extn turns schemas with
  | none => rfl
  | some searches => exact hfold _ { disk, warnings := filenameWarnings searches }

/-! ### The contents -/

/-- The files that are open are empty, each under its name, and no other file has changed since
`disk`. -/
structure Emptied (fs : FileSystem κ ι) (disk : Disk κ ι) (st : OpenFiles ε κ ι) : Prop where
  extends_dir : st.disk.dir.Extends disk.dir
  noLinks : disk.dir.NoLinks → st.disk.dir.NoLinks
  resolve_eq : ∀ e ∈ st.files.entries, st.disk.dir.resolve (fs.fold e.2.1) = some e.2.2.file
  resolve_of_ne : ∀ k, (∀ e ∈ st.files.entries, fs.fold e.2.1 ≠ k) →
    st.disk.dir.resolve k = disk.dir.resolve k
  position_eq : ∀ e ∈ st.files.entries, e.2.2.position = 0
  exists_entry : ∀ i ∈ st.opened, ∃ e ∈ st.files.entries, e.2.2.file = i
  contents_eq : ∀ i, st.disk.contents i =
    if ∃ e ∈ st.files.entries, e.2.2.file = i then [] else disk.contents i

variable {disk : Disk κ ι} {st st' : OpenFiles ε κ ι} {schema filename : Str} {turns : ℕ}

lemma Emptied.start (disk : Disk κ ι) (ws : List (Warning ε)) :
    Emptied fs disk ({ disk, warnings := ws } : OpenFiles ε κ ι) := by
  refine ⟨fun _ _ => id, id, fun e he => absurd he List.not_mem_nil, fun _ _ => rfl,
    fun e he => absurd he List.not_mem_nil, fun i hi => absurd hi (Finset.notMem_empty i),
    fun i => ?_⟩
  rw [if_neg]
  rintro ⟨e, he, -⟩
  exact absurd he List.not_mem_nil

/-- The files that are open are in the directory. -/
lemma Emptied.mem_dir (h : Emptied fs disk st) : ∀ i ∈ st.opened, i ∈ st.disk.dir.map Prod.snd := by
  intro i hi
  obtain ⟨e, he, rfl⟩ := h.exists_entry i hi
  exact List.mem_map_of_mem (Directory.mem_of_resolve (h.resolve_eq e he))

/-- What holds in the loop that opens the file of one more schema. -/
structure Trying (fs : FileSystem κ ι) (disk : Disk κ ι) (st : OpenFiles ε κ ι)
    (s : ReopeningOn ε κ ι) : Prop where
  extends_dir : s.disk.dir.Extends st.disk.dir
  noLinks : st.disk.dir.NoLinks → s.disk.dir.NoLinks
  resolve_eq : s.disk.dir.resolve (fs.fold s.name) = some s.file.file
  resolve_of_ne : ∀ k, k ≠ fs.fold s.name → s.disk.dir.resolve k = st.disk.dir.resolve k
  dir_eq : s.file.file ∈ st.opened → s.disk.dir = st.disk.dir
  position_eq : s.file.position = 0
  contents_eq : ∀ i, s.disk.contents i =
    if i = s.file.file ∨ ∃ e ∈ st.files.entries, e.2.2.file = i then [] else disk.contents i

lemma Trying.firstOpen (h : Emptied fs disk st) (filename : Str) :
    Trying fs disk st (firstOpen fs st filename) := by
  refine ⟨FileSystem.openFile_extends, fun hlinks => FileSystem.noLinks_openFile hlinks filename,
    FileSystem.resolve_openFile, fun k hk => FileSystem.resolve_openFile_of_ne hk,
    fun hmem => (FileSystem.openFile_of_mem h.mem_dir hmem).2, rfl, fun i => ?_⟩
  rw [ite_or, ← h.contents_eq]
  exact fs.contents_create st.disk filename i

/-- A file that is open already is one of the files, so opening it again empties nothing that was
not empty. -/
lemma Trying.step (h : Emptied fs disk st) {s : ReopeningOn ε κ ι} (hs : Trying fs disk st s)
    (hopened : isOpened platform st.opened s.file.file = true) (n : ℤ) :
    Trying fs disk st (reopenOn fs hash source extn schema s n) := by
  have hopened : s.file.file ∈ st.opened := by
    cases platform with
    | other => cases hopened
    | unix => exact isOpened_unix.mp hopened
  rw [reopenOn]
  generalize schemaFilename hash (schema ++ "~" ++ intStr n) source extn = name
  have hdir := hs.dir_eq hopened
  refine ⟨?_, fun hlinks => FileSystem.noLinks_openFile (hs.noLinks hlinks) name,
    FileSystem.resolve_openFile, fun k hk => ?_, fun hmem => ?_, rfl, fun i => ?_⟩
  · intro k i hk
    exact FileSystem.openFile_extends k i (hs.extends_dir k i hk)
  · rw [FileSystem.dir_create, FileSystem.resolve_openFile_of_ne hk, hdir]
  · rw [FileSystem.file_create, hdir] at hmem
    rw [FileSystem.dir_create, hdir]
    exact (FileSystem.openFile_of_mem h.mem_dir hmem).2
  · have hother : (i = s.file.file ∨ ∃ e ∈ st.files.entries, e.2.2.file = i) ↔
        ∃ e ∈ st.files.entries, e.2.2.file = i :=
      or_iff_right_of_imp fun hi => hi ▸ h.exists_entry _ hopened
    rw [ite_or, ← if_congr hother rfl rfl, ← hs.contents_eq]
    exact fs.contents_create s.disk name i

/-- What the loop leaves behind when it stops. -/
lemma exists_trying (h : Emptied fs disk st)
    (hst' : openSchemaFileOn platform fs o hash source extn turns st (schema, filename) =
      some st') :
    ∃ s, Trying fs disk st s ∧ st' = {
      disk := s.disk
      opened := (fileId platform s.file.file).elim st.opened fun id => insert id st.opened
      files := st.files.insert schema (s.name, s.file)
      warnings := s.warnings } := by
  obtain ⟨⟨s, z⟩, hs, hst'⟩ := Option.bind_eq_some_iff.mp hst'
  have hstep : ∀ s n, Trying fs disk st s → isOpened platform st.opened s.file.file = true →
      Trying fs disk st (reopenOn fs hash source extn schema s n) :=
    fun s n hs hopened => hs.step h hopened n
  obtain ⟨htrying, -⟩ := Overflow.count_inv hstep (.firstOpen h filename) hs
  exact ⟨s, htrying, (Option.some_inj.mp hst').symm⟩

lemma Emptied.step (h : Emptied fs disk st) (hschema : schema ∉ st.files.keys)
    (hst' : openSchemaFileOn platform fs o hash source extn turns st (schema, filename) =
      some st') : Emptied fs disk st' ∧ st'.files.keys.Perm (schema :: st.files.keys) := by
  obtain ⟨s, htrying, rfl⟩ := exists_trying h hst'
  have hperm := SortedMap.entries_insert_perm (s.name, s.file) hschema
  have hmem : ∀ {p : Str × Str × Handle ι → Prop},
      (∃ e ∈ (st.files.insert schema (s.name, s.file)).entries, p e) ↔
        p (schema, s.name, s.file) ∨ ∃ e ∈ st.files.entries, p e := by
    intro p
    simp only [hperm.mem_iff, List.mem_cons, exists_eq_or_imp]
  refine ⟨⟨?_, fun hlinks => htrying.noLinks (h.noLinks hlinks), ?_, fun k hk => ?_, ?_, ?_,
    fun i => ?_⟩, hperm.map Prod.fst⟩
  · intro k i hk
    exact htrying.extends_dir k i (h.extends_dir k i hk)
  · intro e he
    rcases List.mem_cons.mp (hperm.mem_iff.mp he) with rfl | he
    · exact htrying.resolve_eq
    · exact htrying.extends_dir _ _ (h.resolve_eq e he)
  · have hne : k ≠ fs.fold s.name := fun heq =>
      hk (schema, s.name, s.file) (hperm.mem_iff.mpr List.mem_cons_self) heq.symm
    rw [htrying.resolve_of_ne k hne]
    exact h.resolve_of_ne k fun e he => hk e (hperm.mem_iff.mpr (List.mem_cons_of_mem _ he))
  · intro e he
    rcases List.mem_cons.mp (hperm.mem_iff.mp he) with rfl | he
    · exact htrying.position_eq
    · exact h.position_eq e he
  · intro i hi
    rw [hmem]
    cases hid : fileId platform s.file.file with
    | none =>
      rw [hid] at hi
      exact .inr (h.exists_entry i hi)
    | some id =>
      have hfile : id = s.file.file := by
        cases platform with
        | other => cases hid
        | unix => exact (Option.some_inj.mp hid).symm
      rw [hid] at hi
      rcases Finset.mem_insert.mp hi with rfl | hi
      · exact .inl hfile.symm
      · exact .inr (h.exists_entry i hi)
  · rw [htrying.contents_eq i]
    congr 1
    rw [hmem, eq_comm (a := i)]

lemma Emptied.foldlM {names : List (Str × Str)} (h : Emptied fs disk st)
    (hnodup : (names.map Prod.fst ++ st.files.keys).Nodup)
    (hst' : names.foldlM (openSchemaFileOn platform fs o hash source extn turns) st = some st') :
    Emptied fs disk st' := by
  induction names generalizing st with
  | nil =>
    obtain rfl := Option.some_inj.mp hst'
    exact h
  | cons entry names ih =>
    obtain ⟨schema, filename⟩ := entry
    rw [List.foldlM_cons] at hst'
    obtain ⟨st₁, hst₁, hst'⟩ := Option.bind_eq_some_iff.mp hst'
    have hschema : schema ∉ st.files.keys := fun hmem =>
      (List.nodup_cons.mp hnodup).1 (List.mem_append_right _ hmem)
    obtain ⟨hemptied, hkeys⟩ := h.step hschema hst₁
    refine ih hemptied ?_ hst'
    exact ((hkeys.append_left (names.map Prod.fst)).trans List.perm_middle).nodup_iff.mpr hnodup

/-! ### All schemas -/

lemma foldlM_openSchemaFileOn_mono {turns' : ℕ} (hturns : turns ≤ turns') {names : List (Str × Str)}
    (h : names.foldlM (openSchemaFileOn platform fs o hash source extn turns) st = some st') :
    names.foldlM (openSchemaFileOn platform fs o hash source extn turns') st = some st' := by
  induction names generalizing st with
  | nil => exact h
  | cons entry names ih =>
    rw [List.foldlM_cons] at h ⊢
    obtain ⟨st₁, hst₁, h⟩ := Option.bind_eq_some_iff.mp h
    have hmore : openSchemaFileOn platform fs o hash source extn turns' st entry = some st₁ := by
      obtain ⟨s, hs, hst₁⟩ := Option.bind_eq_some_iff.mp hst₁
      exact Option.bind_eq_some_iff.mpr ⟨s, Overflow.count_mono hturns hs, hst₁⟩
    rw [hmore]
    exact ih h

/-- On Unix, whatever names stand for one file, the run ends when there are enough numbers, every
schema has an empty file of its own under its name, every name that was there stands for the same
file as before, and no other file has changed. -/
theorem createSchemaFilesOn_empties (fs : FileSystem κ ι) (u : FileTables) (o : Overflow)
    (hash : Str → UInt64) (source extn : Str) (disk : Disk κ ι) (schemas : List Str)
    (hnodup : schemas.Nodup) (hroom : disk.dir.length + schemas.length ≤ o.limit)
    (hfold : TellsNumbersApart fs hash source extn schemas)
    (hhash : Set.InjOn hash (FileStems fs u.toCaseTables o hash source extn disk.dir schemas)) :
    ∃ st : OpenFiles ε κ ι, (∀ turns ≥ disk.dir.length + schemas.length,
        createSchemaFilesOn .unix fs u.toCaseTables o hash source extn turns disk schemas =
          some st) ∧
      st.files.keys.Perm schemas ∧ (st.files.entries.map fun e => e.2.2.file).Nodup ∧
      (∀ e ∈ st.files.entries, st.disk.dir.resolve (fs.fold e.2.1) = some e.2.2.file ∧
        st.disk.contents e.2.2.file = [] ∧ e.2.2.position = 0) ∧
      st.disk.dir.Extends disk.dir ∧
      ∀ i, (∀ e ∈ st.files.entries, e.2.2.file ≠ i) → st.disk.contents i = disk.contents i := by
  obtain ⟨given, hperm, hsearch⟩ := exists_names (by omega) hhash
  have hnames := fun turns hturns => schemaFilenames_of_search (hsearch turns hturns)
  have hgiven : ((namesOf hash source extn given).map Prod.fst).Perm schemas := by
    rwa [map_fst_namesOf]
  obtain ⟨st₀, hst₀, hopened⟩ :=
    exists_opened hroom hfold hhash hnames hgiven hnodup _ [] (List.append_nil _).symm
  -- the run on the disk is the one of the directory, with the contents added
  have hforget := createSchemaFiles_forget (ε := ε) .unix fs u.toCaseTables o hash source extn
    (disk.dir.length + schemas.length) disk schemas
  rw [createSchemaFiles, hnames _ (Nat.le_add_left _ _), Option.bind_eq_bind, Option.bind_some,
    hst₀ _ le_rfl] at hforget
  obtain ⟨st, hst, rfl⟩ := Option.map_eq_some_iff.mp hforget.symm
  rw [createSchemaFilesOn, hsearch _ (Nat.le_add_left _ _), Option.bind_eq_bind, Option.bind_some,
    map_searchesOf] at hst
  have hemptied : Emptied fs disk st := by
    refine (Emptied.start disk _).foldlM ?_ hst
    have hempty : (∅ : SortedMap Str (Str × Handle ι)).keys = [] := rfl
    rw [hempty, List.append_nil]
    exact hgiven.nodup_iff.mpr hnodup
  refine ⟨st, fun turns hturns => ?_, ?_, ?_, fun e he => ⟨hemptied.resolve_eq e he, ?_,
    hemptied.position_eq e he⟩, hemptied.extends_dir, fun i hi => ?_⟩
  · rw [createSchemaFilesOn, hsearch turns ((Nat.le_add_left _ _).trans hturns),
      Option.bind_eq_bind, Option.bind_some, map_searchesOf]
    exact foldlM_openSchemaFileOn_mono hturns hst
  · have hkeys : st.files.keys = st.forget.files.keys := by
      simp only [OpenFiles.forget, SortedMap.keys, SortedMap.map, List.map_map, Function.comp_def]
    rw [hkeys]
    exact hopened.keys_perm.trans hgiven
  · simpa only [OpenFiles.forget, SortedMap.map, List.map_map, Function.comp_def]
      using hopened.files_nodup
  · rw [hemptied.contents_eq, if_pos ⟨e, he, rfl⟩]
  · rw [hemptied.contents_eq, if_neg]
    rintro ⟨e, he, heq⟩
    exact hi e he heq

/-- Two names of one file with a text. -/
def linkedDisk : Disk Str ℕ := ⟨linkedDir, fun _ => "old"⟩

theorem createSchemaFilesOn_empties_linked :
    ∃ st : OpenFiles Empty Str ℕ, (∀ turns ≥ 4, createSchemaFilesOn .unix plainFileSystem .asciiOnly
        .panics (fun _ => 0) "h" "md" turns linkedDisk ["a", "b"] = some st) ∧
      st.files.keys.Perm ["a", "b"] ∧ (st.files.entries.map fun e => e.2.2.file).Nodup ∧
      (∀ e ∈ st.files.entries,
        st.disk.dir.resolve (plainFileSystem.fold e.2.1) = some e.2.2.file ∧
        st.disk.contents e.2.2.file = [] ∧ e.2.2.position = 0) ∧
      st.disk.dir.Extends linkedDir ∧
      ∀ i, (∀ e ∈ st.files.entries, e.2.2.file ≠ i) → st.disk.contents i = "old".toList :=
  createSchemaFilesOn_empties plainFileSystem .asciiOnly .panics (fun _ => 0) "h" "md" linkedDisk
    ["a", "b"] (by decide) (by decide) (tellsNumbersApart_plain _ _ _ _)
    (shortNames_ab.injOn_fileStems (by decide))

end

end TdExport
