import TdExport.Export.Filename.Unique
import TdExport.Export.SchemaFiles.Basic

/-!
# No two schemas share a file

Whatever names of the directory stand for one file, on Unix the schemas of a run get different
files, and each name stands for the file of its schema in the end.
-/

namespace TdExport

open Core

variable {κ ι : Type} [DecidableEq κ] [DecidableEq ι]

/-! ### One schema -/

section Reopen

variable (fs : FileSystem κ ι) (hash : Str → UInt64) (source extn : Str)

/-- The names that are tried for a schema: the given one, then `{schema}~2`, `{schema}~3` … -/
def tryName (schema filename : Str) : ℕ → Str
  | 0 => filename
  | n + 1 => schemaFilename hash (numbered schema (n + 1)) source extn

/-- The name stands for a file that is open. -/
def IsOpened (st : SchemaFiles κ ι) (name : Str) : Prop :=
  ∃ i ∈ st.opened, st.dir.resolve (fs.fold name) = some i

/-- The state of the loop when it tries name `n`, if no name before it made a new file. -/
def tryState (dir : Directory κ ι) (schema filename : Str) (n : ℕ) : Reopening κ ι :=
  let name := tryName hash source extn schema filename n
  ⟨name, (fs.openFile dir name).1, (fs.openFile dir name).2⟩

variable {fs hash source extn} {o : Overflow} {st : SchemaFiles κ ι} {schema filename : Str}
  {turns n : ℕ}

/-- The files that are open have names. -/
def HasNames (st : SchemaFiles κ ι) : Prop := ∀ i ∈ st.opened, i ∈ st.dir.map Prod.snd

lemma isOpened_unix {opened : Finset ι} {file : ι} :
    isOpened .unix opened file = true ↔ file ∈ opened := by
  simp [isOpened, fileId]

omit [DecidableEq ι] in
lemma openFile_mem_iff (h : HasNames st) (name : Str) :
    (fs.openFile st.dir name).1 ∈ st.opened ↔ IsOpened fs st name := by
  constructor
  · intro hmem
    exact ⟨_, hmem, (FileSystem.openFile_of_mem h hmem).1⟩
  · rintro ⟨i, hi, hresolve⟩
    rwa [FileSystem.openFile_of_resolve hresolve]

omit [DecidableEq ι] in
/-- The loop goes through the names as long as they stand for open files. -/
lemma iterate_reopen (h : HasNames st)
    (hopened : ∀ m < n, IsOpened fs st (tryName hash source extn schema filename m)) :
    iterate (reopen fs hash source extn schema)
      (tryState fs hash source extn st.dir schema filename 0) n =
        tryState fs hash source extn st.dir schema filename n := by
  induction n with
  | zero => rfl
  | succ n ih =>
    have hn := (openFile_mem_iff h _).mpr (hopened n (Nat.lt_succ_self n))
    have hname : schemaFilename hash (schema ++ "~" ++ intStr (counter n)) source extn =
        tryName hash source extn schema filename (n + 1) := by
      rw [List.append_assoc]
      rfl
    rw [iterate, ih fun m hm => hopened m (hm.trans (Nat.lt_succ_self n)), reopen, hname]
    simp only [tryState, (FileSystem.openFile_of_mem h hn).2]

/-- Where the loop finds open files. -/
lemma forall_isOpened_iff (h : HasNames st) :
    (∀ m < n, isOpened .unix st.opened (iterate (reopen fs hash source extn schema)
        (tryState fs hash source extn st.dir schema filename 0) m).file = true) ↔
      ∀ m < n, IsOpened fs st (tryName hash source extn schema filename m) := by
  induction n with
  | zero => simp only [Nat.not_lt_zero, false_imp_iff, implies_true]
  | succ n ih =>
    rw [Nat.forall_lt_succ_right, Nat.forall_lt_succ_right, ih]
    refine and_congr_right fun hopened => ?_
    rw [iterate_reopen h hopened, isOpened_unix]
    exact openFile_mem_iff h _

/-- The names of the open files, as the file system sees them. -/
def openedNames (st : SchemaFiles κ ι) : Finset κ :=
  ((st.dir.map Prod.fst).filter fun k => (st.dir.resolve k).any (· ∈ st.opened)).toFinset

lemma fold_mem_openedNames_iff (name : Str) :
    fs.fold name ∈ openedNames st ↔ IsOpened fs st name := by
  simp only [openedNames, List.mem_toFinset, List.mem_filter, Option.any_eq_true,
    decide_eq_true_eq]
  constructor
  · rintro ⟨-, i, hresolve, hi⟩
    exact ⟨i, hi, hresolve⟩
  · rintro ⟨i, hi, hresolve⟩
    exact ⟨List.mem_map_of_mem (Directory.mem_of_resolve hresolve), i, hresolve, hi⟩

lemma card_openedNames_le : (openedNames st).card ≤ st.dir.length := by
  refine (List.toFinset_card_le _).trans ((List.length_filter_le _ _).trans ?_)
  rw [List.length_map]

/-- When the file system tells the names that are tried apart, one of them stands for no open
file. -/
lemma exists_not_isOpened
    (hinj : Set.InjOn (fun n => fs.fold (tryName hash source extn schema filename (n + 1)))
      {n | n ≤ st.dir.length ∧
        ∀ m ≤ n, IsOpened fs st (tryName hash source extn schema filename m)}) :
    ∃ n ≤ st.dir.length + 1,
      (∀ m < n, IsOpened fs st (tryName hash source extn schema filename m)) ∧
      ¬ IsOpened fs st (tryName hash source extn schema filename n) := by
  have hreached_iff : ∀ n, Reached
      (fun n => fs.fold (tryName hash source extn schema filename n)) (openedNames st) n ↔
      ∀ m < n, IsOpened fs st (tryName hash source extn schema filename m) :=
    fun n => forall₂_congr fun m _ => fold_mem_openedNames_iff _
  have hkeys : Set.InjOn (fun n => fs.fold (tryName hash source extn schema filename (n + 1)))
      {n | n ≤ (openedNames st).card ∧
        Reached (fun n => fs.fold (tryName hash source extn schema filename n)) (openedNames st)
          (n + 1)} := by
    refine hinj.mono ?_
    rintro n ⟨hn, hreached⟩
    refine ⟨hn.trans card_openedNames_le, fun m hm => ?_⟩
    exact (hreached_iff _).mp hreached m (Nat.lt_succ_of_le hm)
  obtain ⟨n, hn, hreached, hfree⟩ := @exists_firstFree_succ κ
    (fun n => fs.fold (tryName hash source extn schema filename n)) (openedNames st) hkeys
  refine ⟨n, hn.trans (Nat.succ_le_succ card_openedNames_le), (hreached_iff n).mp hreached, ?_⟩
  exact fun h => hfree ((fold_mem_openedNames_iff _).mpr h)

/-- The file of a schema is opened with the first name that stands for no open file. -/
lemma openSchemaFile_eq_some_iff (h : HasNames st) {st' : SchemaFiles κ ι} :
    openSchemaFile .unix fs o hash source extn turns st (schema, filename) = some st' ↔
      ∃ n ≤ turns, o.Allows n ∧
        (∀ m < n, IsOpened fs st (tryName hash source extn schema filename m)) ∧
        ¬ IsOpened fs st (tryName hash source extn schema filename n) ∧
        st' = {
          dir := (fs.openFile st.dir (tryName hash source extn schema filename n)).2
          opened := insert
            (fs.openFile st.dir (tryName hash source extn schema filename n)).1 st.opened
          files := st.files.insert schema (tryName hash source extn schema filename n,
            (fs.openFile st.dir (tryName hash source extn schema filename n)).1) } := by
  have hstart : (⟨filename, (fs.openFile st.dir filename).1, (fs.openFile st.dir filename).2⟩ :
      Reopening κ ι) = tryState fs hash source extn st.dir schema filename 0 := rfl
  simp only [openSchemaFile, hstart, Option.bind_eq_bind, Option.bind_eq_some_iff, Prod.exists,
    Overflow.count_eq_some_iff, forall_isOpened_iff h]
  constructor
  · rintro ⟨_, _, ⟨n, hn, hallows, hopened, hfree, rfl, rfl⟩, hst'⟩
    rw [iterate_reopen h hopened] at hfree hst'
    rw [isOpened_unix] at hfree
    exact ⟨n, hn, hallows, hopened, fun hn => hfree ((openFile_mem_iff h _).mpr hn),
      (Option.some_inj.mp hst').symm⟩
  · rintro ⟨n, hn, hallows, hopened, hfree, rfl⟩
    refine ⟨_, _, ⟨n, hn, hallows, hopened, ?_, (iterate_reopen h hopened).symm, rfl⟩, rfl⟩
    rw [iterate_reopen h hopened, isOpened_unix]
    exact fun hn => hfree ((openFile_mem_iff h _).mp hn)

/-- The file of a schema can be opened, with enough turns, when there is a number for every name. -/
lemma exists_openSchemaFile (h : HasNames st) (hroom : st.dir.length + 1 ≤ o.limit)
    (hinj : Set.InjOn (fun n => fs.fold (tryName hash source extn schema filename (n + 1)))
      {n | n ≤ st.dir.length ∧
        ∀ m ≤ n, IsOpened fs st (tryName hash source extn schema filename m)}) :
    ∃ st', ∀ turns ≥ st.dir.length + 1,
      openSchemaFile .unix fs o hash source extn turns st (schema, filename) = some st' := by
  obtain ⟨n, hn, hopened, hfree⟩ := exists_not_isOpened hinj
  exact ⟨_, fun turns hturns => (openSchemaFile_eq_some_iff h).mpr
    ⟨n, hn.trans hturns, .inr (hn.trans hroom), hopened, hfree, rfl⟩⟩

end Reopen

/-! ### All schemas -/

section All

variable {fs : FileSystem κ ι} {hash : Str → UInt64} {source extn : Str} {dir : Directory κ ι}
  {st st' : SchemaFiles κ ι} {done : List Str} {schema filename : Str} {o : Overflow} {turns : ℕ}

/-- What holds when the files of the schemas `done` are open. -/
structure Opened (fs : FileSystem κ ι) (dir : Directory κ ι) (done : List Str)
    (st : SchemaFiles κ ι) : Prop where
  keys_perm : st.files.keys.Perm done
  opened_eq : st.opened = (st.files.entries.map fun e => e.2.2).toFinset
  files_nodup : (st.files.entries.map fun e => e.2.2).Nodup
  resolve_eq : ∀ e ∈ st.files.entries, st.dir.resolve (fs.fold e.2.1) = some e.2.2
  length_le : st.dir.length ≤ dir.length + done.length

lemma Opened.start (fs : FileSystem κ ι) (dir : Directory κ ι) : Opened fs dir [] { dir } :=
  ⟨.refl _, rfl, List.nodup_nil, fun _ he => absurd he List.not_mem_nil, le_rfl⟩

lemma Opened.mem_opened_iff (h : Opened fs dir done st) {i : ι} :
    i ∈ st.opened ↔ ∃ e ∈ st.files.entries, e.2.2 = i := by
  rw [h.opened_eq, List.mem_toFinset, List.mem_map]

lemma Opened.hasNames (h : Opened fs dir done st) : HasNames st := by
  intro i hi
  obtain ⟨e, he, rfl⟩ := h.mem_opened_iff.mp hi
  exact List.mem_map_of_mem (Directory.mem_of_resolve (h.resolve_eq e he))

/-- Opening the file of one more schema. -/
lemma Opened.step (h : Opened fs dir done st) (hschema : schema ∉ done)
    (hst' : openSchemaFile .unix fs o hash source extn turns st (schema, filename) = some st') :
    Opened fs dir (done ++ [schema]) st' := by
  obtain ⟨n, -, -, -, hfree, rfl⟩ := (openSchemaFile_eq_some_iff h.hasNames).mp hst'
  generalize tryName hash source extn schema filename n = name at hfree ⊢
  have hnew : (fs.openFile st.dir name).1 ∉ st.opened :=
    fun hmem => hfree ((openFile_mem_iff h.hasNames name).mp hmem)
  have hperm := SortedMap.entries_insert_perm (name, (fs.openFile st.dir name).1)
    (h.keys_perm.mem_iff.not.mpr hschema)
  have hfiles := hperm.map fun e => e.2.2
  refine ⟨?_, ?_, ?_, ?_, ?_⟩
  · refine (hperm.map Prod.fst).trans ?_
    exact (h.keys_perm.cons schema).trans (List.perm_append_singleton schema done).symm
  · rw [List.toFinset_eq_of_perm _ _ hfiles, List.map_cons, List.toFinset_cons, h.opened_eq]
  · refine hfiles.nodup_iff.mpr (List.nodup_cons.mpr ⟨?_, h.files_nodup⟩)
    intro hmem
    obtain ⟨e, he, heq⟩ := List.mem_map.mp hmem
    exact hnew (h.mem_opened_iff.mpr ⟨e, he, heq⟩)
  · intro e he
    rcases List.mem_cons.mp (hperm.mem_iff.mp he) with rfl | he
    · exact FileSystem.resolve_openFile
    · exact FileSystem.openFile_extends _ _ (h.resolve_eq e he)
  · rw [List.length_append, List.length_singleton, ← Nat.add_assoc]
    exact FileSystem.length_openFile_le.trans (Nat.succ_le_succ h.length_le)

end All

section Run

variable (fs : FileSystem κ ι) (u : CaseTables) (o : Overflow) (hash : Str → UInt64)
  (source extn : Str) (dir : Directory κ ι) (schemas : List Str)

/-- The stems of the names that are tried because the file of the name before is open. -/
inductive ReopenedStem : Str → Prop
  | of_turn {turns n : ℕ} {before after : List (Str × Str)} {schema filename : Str}
      {st : SchemaFiles κ ι} :
      schemaFilenames u o hash source extn turns schemas =
        some (before ++ (schema, filename) :: after) →
      before.foldlM (openSchemaFile .unix fs o hash source extn turns) { dir } = some st →
      o.Allows (n + 1) →
      (∀ m ≤ n, IsOpened fs st (tryName hash source extn schema filename m)) →
      ReopenedStem (protectDevice (sanitizeFilenamePart (numbered schema (n + 1)) ++ "(" ++
        sanitizeFilenamePart source ++ ")"))

/-- The stems that a run tries and that are too long for a file name. -/
def FileStems : Set Str :=
  {s | (TriedStem u o hash source extn schemas s ∨
    ReopenedStem fs u o hash source extn dir schemas s) ∧ ¬ Fits extn s}

/-- The file system tells the numbered names of each schema apart. -/
def TellsNumbersApart : Prop :=
  ∀ schema ∈ schemas, ∀ m n,
    schemaFilename hash (numbered schema (m + 1)) source extn ≠
        schemaFilename hash (numbered schema (n + 1)) source extn →
      fs.fold (schemaFilename hash (numbered schema (m + 1)) source extn) ≠
        fs.fold (schemaFilename hash (numbered schema (n + 1)) source extn)

variable {fs o hash source extn dir schemas} {u : FileTables}

/-- The names that are tried for a schema are told apart, as long as there are numbers. -/
lemma injOn_fold_tryName {before after : List (Str × Str)} {schema filename : Str} {turns : ℕ}
    {st : SchemaFiles κ ι} (hfold : TellsNumbersApart fs hash source extn schemas)
    (hhash : Set.InjOn hash (FileStems fs u.toCaseTables o hash source extn dir schemas))
    (hnames : schemaFilenames u.toCaseTables o hash source extn turns schemas =
      some (before ++ (schema, filename) :: after)) (hschema : schema ∈ schemas)
    (hst : before.foldlM (openSchemaFile .unix fs o hash source extn turns) { dir } = some st)
    (hroom : st.dir.length + 1 ≤ o.limit) :
    Set.InjOn (fun n => fs.fold (tryName hash source extn schema filename (n + 1)))
      {n | n ≤ st.dir.length ∧
        ∀ m ≤ n, IsOpened fs st (tryName hash source extn schema filename m)} := by
  have hcut : ∀ n ≤ st.dir.length,
      (∀ m ≤ n, IsOpened fs st (tryName hash source extn schema filename m)) →
      ¬ Fits extn (candidateStem source schema (n + 1)) →
      candidateStem source schema (n + 1) ∈
        FileStems fs u.toCaseTables o hash source extn dir schemas := by
    intro n hle hn hlong
    have hallows : o.Allows (n + 1) := .inr ((Nat.succ_le_succ hle).trans hroom)
    have hreopened := ReopenedStem.of_turn hnames hst hallows hn
    rw [protectDevice_numbered] at hreopened
    exact ⟨.inr hreopened, hlong⟩
  have hlimit : ∀ n ≤ st.dir.length, n + 1 ≤ 2 ^ 32 :=
    fun n hn => ((Nat.succ_le_succ hn).trans hroom).trans o.limit_le
  rintro m ⟨hmle, hm⟩ n ⟨hnle, hn⟩ hkey
  have hname : schemaFilename hash (numbered schema (m + 1)) source extn =
      schemaFilename hash (numbered schema (n + 1)) source extn := by
    by_contra hne
    exact hfold schema hschema m n hne hkey
  have heq := number_eq_of_candidateKey_eq (u := u) hhash (hlimit m hmle) (hlimit n hnle)
    (hcut m hmle hm) (hcut n hnle hn) (congrArg u.toLowercase hname)
  exact Nat.succ_inj.mp heq

/-- The files of the first schemas can be opened, with enough turns. -/
lemma exists_opened {names : List (Str × Str)}
    (hroom : dir.length + schemas.length ≤ o.limit)
    (hfold : TellsNumbersApart fs hash source extn schemas)
    (hhash : Set.InjOn hash (FileStems fs u.toCaseTables o hash source extn dir schemas))
    (hnames : ∀ turns ≥ schemas.length,
      schemaFilenames u.toCaseTables o hash source extn turns schemas = some names)
    (hperm : (names.map Prod.fst).Perm schemas) (hnodup : schemas.Nodup)
    (before after : List (Str × Str)) (heq : names = before ++ after) :
    ∃ st, (∀ turns ≥ dir.length + schemas.length,
        before.foldlM (openSchemaFile .unix fs o hash source extn turns) { dir } = some st) ∧
      Opened fs dir (before.map Prod.fst) st := by
  induction before using List.reverseRecOn generalizing after with
  | nil => exact ⟨{ dir }, fun _ _ => rfl, .start fs dir⟩
  | append_singleton before e ih =>
    obtain ⟨schema, filename⟩ := e
    rw [List.append_assoc, List.singleton_append] at heq
    obtain ⟨st, hst, hopened⟩ := ih _ heq
    have hsplit : (before.map Prod.fst ++ schema :: after.map Prod.fst).Perm schemas := by
      simpa [heq] using hperm
    have hschema : schema ∉ before.map Prod.fst := fun hmem =>
      (List.nodup_append.mp (hsplit.nodup_iff.mpr hnodup)).2.2 _ hmem _ List.mem_cons_self rfl
    have hlength : before.length + 1 ≤ schemas.length := by
      have := hsplit.length_eq
      simp only [List.length_append, List.length_map, List.length_cons] at this
      omega
    have hdir := hopened.length_le
    rw [List.length_map] at hdir
    have hfew : st.dir.length + 1 ≤ o.limit := by omega
    have hinj := injOn_fold_tryName hfold hhash
      (heq ▸ hnames (dir.length + schemas.length) (Nat.le_add_left _ _))
      (hsplit.subset (by simp)) (hst _ le_rfl) hfew
    obtain ⟨st', hst'⟩ := exists_openSchemaFile hopened.hasNames hfew hinj
    refine ⟨st', fun turns hturns => ?_, ?_⟩
    · rw [List.foldlM_append, hst turns hturns, Option.bind_eq_bind, Option.bind_some,
        List.foldlM_cons, hst' turns (by omega)]
      rfl
    · rw [List.map_append]
      exact hopened.step hschema (hst' _ le_rfl)

/-- The names of the run that are opened one after the other. -/
lemma exists_names (hroom : schemas.length ≤ o.limit + 1)
    (hhash : Set.InjOn hash (FileStems fs u.toCaseTables o hash source extn dir schemas)) :
    ∃ given, (given.map Prod.fst).Perm schemas ∧ ∀ turns ≥ schemas.length,
      searchNames u.toCaseTables o hash source extn turns schemas =
        some (searchesOf hash source extn given) := by
  have hsub : {s | TriedStem u.toCaseTables o hash source extn schemas s ∧ ¬ Fits extn s} ⊆
      FileStems fs u.toCaseTables o hash source extn dir schemas := by
    rintro s ⟨htried, hcut⟩
    exact ⟨.inl htried, hcut⟩
  obtain ⟨given, -, -, hmap, hnames⟩ := exists_numbers hroom (hhash.mono hsub)
  refine ⟨given, ?_, hnames⟩
  rw [hmap]
  exact List.perm_insertionSort _ _

/-- On Unix a run ends when there are enough numbers, and every schema has one name and one file:
the files are different, and each name stands for the file of its schema. -/
theorem createSchemaFiles_distinct (fs : FileSystem κ ι) (u : FileTables) (o : Overflow)
    (hash : Str → UInt64) (source extn : Str) (dir : Directory κ ι) (schemas : List Str)
    (hnodup : schemas.Nodup) (hroom : dir.length + schemas.length ≤ o.limit)
    (hfold : TellsNumbersApart fs hash source extn schemas)
    (hhash : Set.InjOn hash (FileStems fs u.toCaseTables o hash source extn dir schemas)) :
    ∃ st, (∀ turns ≥ dir.length + schemas.length,
        createSchemaFiles .unix fs u.toCaseTables o hash source extn turns dir schemas = some st) ∧
      st.files.keys.Perm schemas ∧ (st.files.entries.map fun e => e.2.2).Nodup ∧
      ∀ e ∈ st.files.entries, st.dir.resolve (fs.fold e.2.1) = some e.2.2 := by
  obtain ⟨given, hperm, hsearch⟩ := exists_names (by omega) hhash
  have hnames := fun turns hturns => schemaFilenames_of_search (hsearch turns hturns)
  obtain ⟨st, hst, hopened⟩ := exists_opened hroom hfold hhash hnames
    (by rwa [map_fst_namesOf]) hnodup _ [] (List.append_nil _).symm
  rw [map_fst_namesOf] at hopened
  refine ⟨st, fun turns hturns => ?_, hopened.keys_perm.trans hperm, hopened.files_nodup,
    hopened.resolve_eq⟩
  rw [createSchemaFiles, hnames turns ((Nat.le_add_left _ _).trans hturns)]
  exact hst turns hturns

end Run

/-! ### Short names -/

section Short

variable {fs : FileSystem κ ι} {u : CaseTables} {o : Overflow} {hash : Str → UInt64}
  {source extn : Str} {dir : Directory κ ι} {schemas : List Str}

lemma ReopenedStem.exists_schema {s : Str}
    (h : ReopenedStem fs u o hash source extn dir schemas s) :
    ∃ schema ∈ schemas, ∃ n, s = candidateStem source schema n := by
  obtain @⟨turns, n, before, after, schema, filename, st, hnames, -, -, -⟩ := h
  obtain ⟨given, -, -, hmap, heq⟩ := exists_numbers_of_run hnames
  have hmem : (schema, filename) ∈ namesOf hash source extn given := by
    rw [← heq]
    exact List.mem_append_right _ List.mem_cons_self
  obtain ⟨p, hp, hname⟩ := List.mem_map.mp hmem
  obtain ⟨rfl, -⟩ := Prod.mk.inj hname
  exact ⟨p.1, mem_of_mem_given hmap hp, n + 1, protectDevice_numbered _ _ _⟩

/-- No name is hashed. -/
lemma ShortNames.fileStems_eq (h : ShortNames source schemas) (hextn : utf8Len extn ≤ 40) :
    FileStems fs u o hash source extn dir schemas = ∅ := by
  rw [Set.eq_empty_iff_forall_notMem]
  rintro s ⟨hs, hcut⟩
  obtain ⟨a, ha, n, rfl⟩ := hs.elim TriedStem.exists_schema ReopenedStem.exists_schema
  have hle := h.utf8Len_le ha n
  exact hcut (fits_of_le (by rw [maxFilenameBytes]; omega))

lemma ShortNames.injOn_fileStems (h : ShortNames source schemas) (hextn : utf8Len extn ≤ 40) :
    Set.InjOn hash (FileStems fs u o hash source extn dir schemas) := by
  rw [h.fileStems_eq hextn]
  exact Set.injOn_empty _

end Short

lemma shortNames_ab : ShortNames "h" ["a", "b"] := by
  rw [ShortNames]
  decide +kernel

/-! ### A directory with a hard link -/

/-- A file system that takes no two names for one. -/
def plainFileSystem : FileSystem Str ℕ where
  fold := id
  alloc used := used.sum + 1
  alloc_notMem _ h := absurd (List.le_sum_of_mem h) (Nat.not_succ_le_self _)

lemma fold_plainFileSystem (name : Str) : plainFileSystem.fold name = name := rfl

lemma tellsNumbersApart_plain (hash : Str → UInt64) (source extn : Str) (schemas : List Str) :
    TellsNumbersApart plainFileSystem hash source extn schemas := by
  intro schema _ m n hne
  rwa [fold_plainFileSystem, fold_plainFileSystem]

/-- Two names of one file. -/
def linkedDir : Directory Str ℕ := [("a(h).md", 0), ("b(h).md", 0)]

theorem createSchemaFiles_distinct_linked :
    ∃ st, (∀ turns ≥ 4, createSchemaFiles .unix plainFileSystem .asciiOnly .panics (fun _ => 0) "h"
        "md" turns linkedDir ["a", "b"] = some st) ∧
      st.files.keys.Perm ["a", "b"] ∧ (st.files.entries.map fun e => e.2.2).Nodup ∧
      ∀ e ∈ st.files.entries, st.dir.resolve (plainFileSystem.fold e.2.1) = some e.2.2 :=
  createSchemaFiles_distinct plainFileSystem .asciiOnly .panics (fun _ => 0) "h" "md" linkedDir
    ["a", "b"] (by decide) (by decide) (tellsNumbersApart_plain _ _ _ _)
    (shortNames_ab.injOn_fileStems (by decide))

/-! ### A directory with too many hard links -/

/-- A file with the name `first` and the first `count` of other names. -/
def crowdedDir (first : Str) (name : ℕ → Str) (count : ℕ) : Directory Str ℕ :=
  (first, 0) :: (List.range count).map fun k => (name k, 0)

section Crowded

variable {first : Str} {name : ℕ → Str} {count : ℕ}

lemma mem_crowdedDir {s : Str} :
    s ∈ (crowdedDir first name count).map Prod.fst ↔ s = first ∨ ∃ k < count, name k = s := by
  rw [crowdedDir, List.map_cons, List.map_map, List.mem_cons, List.mem_map]
  simp only [List.mem_range, Function.comp_apply]

lemma resolve_crowdedDir {s : Str} (h : s ∈ (crowdedDir first name count).map Prod.fst) :
    (crowdedDir first name count).resolve s = some 0 := by
  refine Directory.resolve_of_forall (fun e he => ?_) h
  rw [crowdedDir, List.mem_cons, List.mem_map] at he
  obtain rfl | ⟨k, -, rfl⟩ := he
  · rfl
  · rfl

variable {o : Overflow} {hash : Str → UInt64} {source extn schema filename : Str} {turns : ℕ}
  {st st' : SchemaFiles Str ℕ}

/-- Every number has its name, whatever the counter does. -/
lemma tryName_mem_crowdedDir (hcount : 2 ^ 32 < count) (k : ℕ) :
    tryName hash source extn schema filename k ∈
      (crowdedDir first (tryName hash source extn schema filename) count).map Prod.fst := by
  refine mem_crowdedDir.mpr (.inr ?_)
  cases k with
  | zero => exact ⟨0, (Nat.zero_le _).trans_lt hcount, rfl⟩
  | succ k =>
    have hlt : k % 2 ^ 32 < 2 ^ 32 := Nat.mod_lt k (by norm_num)
    refine ⟨k % 2 ^ 32 + 1, lt_of_le_of_lt (Nat.succ_le_of_lt hlt) hcount, ?_⟩
    rw [tryName, tryName, numbered, numbered, numberTail, numberTail, counter_mod]

/-- The schema that comes first takes the file with all the names. -/
lemma openSchemaFile_crowded
    (h : openSchemaFile .unix plainFileSystem o hash source extn turns
      { dir := crowdedDir first name count } (schema, first) = some st) :
    st.dir = crowdedDir first name count ∧ st.opened = {0} := by
  have hstart : HasNames ({ dir := crowdedDir first name count } : SchemaFiles Str ℕ) :=
    fun i hi => absurd hi (Finset.notMem_empty i)
  obtain ⟨n, -, -, hopened, -, rfl⟩ := (openSchemaFile_eq_some_iff hstart).mp h
  cases n with
  | zero =>
    have hresolve : (crowdedDir first name count).resolve (plainFileSystem.fold first) = some 0 :=
      resolve_crowdedDir (mem_crowdedDir.mpr (.inl rfl))
    rw [tryName, FileSystem.openFile_of_resolve hresolve]
    exact ⟨rfl, rfl⟩
  | succ n =>
    obtain ⟨i, hi, -⟩ := hopened 0 (Nat.succ_pos n)
    exact absurd hi (Finset.notMem_empty i)

/-- There is no file for a schema whose names all stand for the open one. -/
lemma openSchemaFile_eq_none_of_crowded (hcount : 2 ^ 32 < count)
    (hdir : st.dir = crowdedDir first (tryName hash source extn schema filename) count)
    (hopened : st.opened = {0}) :
    openSchemaFile .unix plainFileSystem o hash source extn turns st (schema, filename) = none := by
  rw [Option.eq_none_iff_forall_ne_some]
  intro st' h
  have hnames : HasNames st := by
    intro i hi
    rw [hopened, Finset.mem_singleton] at hi
    rw [hi, hdir, crowdedDir, List.map_cons]
    exact List.mem_cons_self
  obtain ⟨n, -, -, -, hfree, -⟩ := (openSchemaFile_eq_some_iff hnames).mp h
  refine hfree ⟨0, hopened ▸ Finset.mem_singleton_self 0, ?_⟩
  rw [hdir]
  exact resolve_crowdedDir (tryName_mem_crowdedDir hcount n)

end Crowded

/-- The names for the files of `b`. -/
def linkedName : ℕ → Str := tryName (fun _ => 0) "h" "md" "b" "b(h).md"

/-- The names of the files of `a` and `b`. -/
lemma firstFit_ab : FirstFit (candidateKey .asciiOnly (fun _ => 0) "h" "md") ∅
    [("a".toList, 0), ("b".toList, 0)] := by
  refine .cons ⟨fun m hm => absurd hm m.not_lt_zero, ?_⟩
    (.cons ⟨fun m hm => absurd hm m.not_lt_zero, ?_⟩ (.nil _)) <;> decide +kernel

lemma createSchemaFiles_crowded (o : Overflow) (turns : ℕ) {count : ℕ} (hcount : 2 ^ 32 < count)
    {st : SchemaFiles Str ℕ} :
    createSchemaFiles .unix plainFileSystem .asciiOnly o (fun _ => 0) "h" "md" turns
      (crowdedDir "a(h).md" linkedName count) ["a", "b"] ≠ some st := by
  intro h
  obtain ⟨names, hnames, hopen⟩ := Option.bind_eq_some_iff.mp h
  have hab : namesOf (fun _ => 0) "h" "md" [("a".toList, 0), ("b".toList, 0)] =
      [("a".toList, "a(h).md".toList), ("b".toList, "b(h).md".toList)] := by decide +kernel
  rw [names_eq_of_run firstFit_ab (by decide) hnames, hab, List.foldlM_cons] at hopen
  obtain ⟨st', ha, hb⟩ := Option.bind_eq_some_iff.mp hopen
  obtain ⟨hdir, hopened⟩ := openSchemaFile_crowded ha
  rw [List.foldlM_cons, openSchemaFile_eq_none_of_crowded hcount hdir hopened] at hb
  exact absurd hb (Option.some_ne_none st).symm

/-- With a directory that has more names for one file than there are numbers, the loop does not end,
or panics. -/
theorem not_createSchemaFiles_overflow :
    (¬ ∀ (fs : FileSystem Str ℕ) (u : FileTables) (hash : Str → UInt64) (source extn : Str)
        (dir : Directory Str ℕ) (schemas : List Str), schemas.Nodup →
      TellsNumbersApart fs hash source extn schemas →
      Set.InjOn hash (FileStems fs u.toCaseTables .panics hash source extn dir schemas) →
      ∃ turns st, createSchemaFiles .unix fs u.toCaseTables .panics hash source extn turns dir
        schemas = some st) ∧
    ¬ ∀ (fs : FileSystem Str ℕ) (u : FileTables) (hash : Str → UInt64) (source extn : Str)
        (dir : Directory Str ℕ) (schemas : List Str), schemas.Nodup →
      TellsNumbersApart fs hash source extn schemas →
      Set.InjOn hash (FileStems fs u.toCaseTables .wraps hash source extn dir schemas) →
      ∃ turns st, createSchemaFiles .unix fs u.toCaseTables .wraps hash source extn turns dir
        schemas = some st := by
  have hcount : 2 ^ 32 < 2 ^ 32 + 1 := by norm_num
  constructor
  · intro h
    obtain ⟨turns, st, hst⟩ := h plainFileSystem .asciiOnly (fun _ => 0) "h" "md"
      (crowdedDir "a(h).md" linkedName (2 ^ 32 + 1)) ["a", "b"] (by decide)
      (tellsNumbersApart_plain _ _ _ _) (shortNames_ab.injOn_fileStems (by decide))
    exact createSchemaFiles_crowded _ _ hcount hst
  · intro h
    obtain ⟨turns, st, hst⟩ := h plainFileSystem .asciiOnly (fun _ => 0) "h" "md"
      (crowdedDir "a(h).md" linkedName (2 ^ 32 + 1)) ["a", "b"] (by decide)
      (tellsNumbersApart_plain _ _ _ _) (shortNames_ab.injOn_fileStems (by decide))
    exact createSchemaFiles_crowded _ _ hcount hst

end TdExport
