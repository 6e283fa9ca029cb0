import TdExport.Export.SchemaFiles.Discerned
import TdExport.Export.Sql.Views
import TdExport.Run.Schedule

/-!
# The SQL files after a run

What a run leaves in the directory: the file of every schema that was exported, its file of
statements that refer to other schemas, and nothing else. A schema whose tables cannot be listed
ends the run, and the files of the schemas behind it stay empty.
-/

namespace TdExport

open Core

variable {ε κ ι : Type}

@[simp] lemma World.disk_warned (w : World κ ι) (ws : List (Warning ε)) :
    (w.warned ws).disk = w.disk := rfl

namespace Sql

/-! ### One schema -/

/-- What is found under the name for the statements that refer to other schemas. -/
def crossSchemaText (schema : Str) (statements : List Str) : Option Str :=
  if statements = [] then none else some (writeCrossSchemaSql schema statements)

lemma exists_writeSql (u : Unicode) (schema : Str) (objects : SchemaDdl) (tables : List TableDef)
    (dbType : DbType) : ∃ text, writeSql u schema objects tables dbType = some text := by
  obtain ⟨views, hviews, -⟩ :=
    orderViews_perm u schema (tables.filter fun t => t.general.isView) dbType
  rw [writeSql]
  simp only [hviews, Option.bind_eq_bind, Option.bind_some, Option.pure_def]
  exact ⟨_, rfl⟩

lemma exists_writeSqlWarnings (u : Unicode) (schema : Str) (tables : List TableDef)
    (dbType : DbType) :
    ∃ ws : List (Warning ε), writeSqlWarnings u schema tables dbType = some ws := by
  obtain ⟨views, hviews, -⟩ :=
    orderViews_perm u schema (tables.filter fun t => t.general.isView) dbType
  rw [writeSqlWarnings, hviews]
  exact ⟨_, rfl⟩

section

variable [DecidableEq κ] [DecidableEq ι] {m : Machine κ ι} {disk : Disk κ ι}

/-- The effect of `write_cross_schema_file` is on one name. -/
lemma read_writeCrossSchemaFile (hdisk : disk.dir.NoLinks) (path schema : Str)
    (statements : List Str) (k : κ) :
    (writeCrossSchemaFile m disk path schema statements).read k =
      if k = m.fs.fold path then crossSchemaText schema statements else disk.read k := by
  rw [writeCrossSchemaFile, crossSchemaText]
  by_cases hempty : statements = []
  · rw [if_pos hempty, if_pos hempty, FileSystem.read_remove]
  · rw [if_neg hempty, if_neg hempty]
    exact FileSystem.read_create_write hdisk path _ k

lemma noLinks_writeCrossSchemaFile (hdisk : disk.dir.NoLinks) (path schema : Str)
    (statements : List Str) :
    (writeCrossSchemaFile m disk path schema statements).dir.NoLinks := by
  rw [writeCrossSchemaFile]
  split_ifs
  · exact hdisk.filter _
  · exact FileSystem.noLinks_openFile hdisk path

lemma resolve_writeCrossSchemaFile {path : Str} {k : κ} (hk : k ≠ m.fs.fold path) (schema : Str)
    (statements : List Str) :
    (writeCrossSchemaFile m disk path schema statements).dir.resolve k = disk.dir.resolve k := by
  rw [writeCrossSchemaFile]
  split_ifs
  · exact Directory.resolve_filter_of_ne hk _
  · exact FileSystem.resolve_openFile_of_ne hk

end

end Sql

/-! ### The names of a run -/

section Names

variable (m : Machine κ ι) (names : List (Str × Str))

/-- The names of the files of schemas, and those for the statements that refer to other schemas, as
the file system sees them. -/
def mainKey (p : Str × Str) : κ := m.fs.fold p.2

def crossKeyOf (p : Str × Str) : κ := m.fs.fold (crossSchemaFilename m.hash p.2)

/-- No two names of a run stand for one file. -/
structure Apart : Prop where
  schemas : (names.map Prod.fst).Nodup
  keys : (names.map (mainKey m) ++ names.map (crossKeyOf m)).Nodup

variable {m names} {p q : Str × Str}

lemma Apart.mainKey_ne (h : Apart m names) (hp : p ∈ names) (hq : q ∈ names) (hne : p.1 ≠ q.1) :
    mainKey m p ≠ mainKey m q := fun heq =>
  hne (congrArg Prod.fst (List.inj_on_of_nodup_map h.keys.of_append_left hp hq heq))

lemma Apart.crossKey_ne (h : Apart m names) (hp : p ∈ names) (hq : q ∈ names) (hne : p.1 ≠ q.1) :
    crossKeyOf m p ≠ crossKeyOf m q := fun heq =>
  hne (congrArg Prod.fst (List.inj_on_of_nodup_map h.keys.of_append_right hp hq heq))

lemma Apart.mainKey_ne_crossKey (h : Apart m names) (hp : p ∈ names) (hq : q ∈ names) :
    mainKey m p ≠ crossKeyOf m q := fun heq =>
  (List.nodup_append.mp h.keys).2.2 _ (List.mem_map_of_mem hp) _ (List.mem_map_of_mem hq) heq

end Names

/-! ### The loop over the schemas -/

section Loop

variable [DecidableEq κ] [DecidableEq ι] (m : Machine κ ι) (names : List (Str × Str))
  (text : Str → Option Str) (statements : Str → List Str) (disk : Disk κ ι) (done : List Str)

/-- The files when the schemas `done` are exported. -/
structure Files (d : Disk κ ι) : Prop where
  main : ∀ p ∈ names, d.read (mainKey m p) = if p.1 ∈ done then text p.1 else some []
  cross : ∀ p ∈ names, d.read (crossKeyOf m p) =
    if p.1 ∈ done then Sql.crossSchemaText p.1 (statements p.1) else disk.read (crossKeyOf m p)
  other : ∀ k, (∀ p ∈ names, mainKey m p ≠ k ∧ crossKeyOf m p ≠ k) → d.read k = disk.read k

/-- The exporter waits for the schemas that are not done, with an open file for each. -/
structure Waits (exporter : Sql.SqlExporter ι) (d : Disk κ ι) : Prop where
  noLinks : d.dir.NoLinks
  preamble : ∀ schema ∉ done, exporter.preambles.lookup schema = none
  file : ∀ p ∈ names, p.1 ∉ done → ∃ i, exporter.files.lookup p.1 = some (p.2, ⟨i, 0⟩) ∧
    d.dir.resolve (mainKey m p) = some i

variable {m names text statements disk done} {d : Disk κ ι} {schema name : Str}

omit [DecidableEq κ] [DecidableEq ι] in
lemma Apart.eq_of_fst_eq (h : Apart m names) (hname : (schema, name) ∈ names) {p : Str × Str}
    (hp : p ∈ names) (heq : p.1 = schema) : p = (schema, name) :=
  List.inj_on_of_nodup_map h.schemas hp hname heq

omit [DecidableEq ι] in
/-- The files after one more schema. -/
lemma Files.step (h : Files m names text statements disk done d) (hapart : Apart m names)
    (hname : (schema, name) ∈ names) {d' : Disk κ ι}
    (hread : ∀ k, d'.read k =
      if k = crossKeyOf m (schema, name) then Sql.crossSchemaText schema (statements schema)
      else if k = mainKey m (schema, name) then text schema else d.read k) :
    Files m names text statements disk (schema :: done) d' := by
  refine ⟨fun p hp => ?_, fun p hp => ?_, fun k hk => ?_⟩
  · rw [hread, if_neg (hapart.mainKey_ne_crossKey hp hname)]
    by_cases heq : p.1 = schema
    · obtain rfl := hapart.eq_of_fst_eq hname hp heq
      rw [if_pos rfl, if_pos List.mem_cons_self]
    · have hmem : p.1 ∈ schema :: done ↔ p.1 ∈ done := List.mem_cons.trans (or_iff_right heq)
      rw [if_neg (hapart.mainKey_ne hp hname heq), h.main p hp]
      simp only [hmem]
  · rw [hread]
    by_cases heq : p.1 = schema
    · obtain rfl := hapart.eq_of_fst_eq hname hp heq
      rw [if_pos rfl, if_pos List.mem_cons_self]
    · have hmem : p.1 ∈ schema :: done ↔ p.1 ∈ done := List.mem_cons.trans (or_iff_right heq)
      rw [if_neg (hapart.crossKey_ne hp hname heq),
        if_neg (hapart.mainKey_ne_crossKey hname hp).symm, h.cross p hp]
      simp only [hmem]
  · obtain ⟨hmain, hcross⟩ := hk _ hname
    rw [hread, if_neg hcross.symm, if_neg hmain.symm, h.other k hk]

variable {exporter : Sql.SqlExporter ι} {w : World κ ι} {tables : List TableDef}

variable (m w tables) in
/-- Writing the tables of a schema whose file is open. -/
lemma exists_writeTables_eq {handle : Handle ι}
    (hlookup : exporter.files.lookup schema = some (name, handle)) :
    ∃ s ws, Sql.writeSql m.tables.toUnicode schema ((exporter.preambles.lookup schema).getD {})
        tables exporter.dbType = some s ∧
      Sql.writeSqlWarnings m.tables.toUnicode schema tables exporter.dbType = some ws ∧
      exporter.writeTables m schema tables w = some (
        { files := exporter.files.insert schema (name, (w.disk.write handle s).1)
          dbType := exporter.dbType
          preambles := exporter.preambles.erase schema },
        { disk := Sql.writeCrossSchemaFile m (w.disk.write handle s).2
            (crossSchemaFilename m.hash name) schema (tables.flatMap TableDef.ddlCrossSchema)
          warn := w.warn.recordAll (ε := Empty) ws }) := by
  obtain ⟨ws, hws⟩ := Sql.exists_writeSqlWarnings (ε := Empty) m.tables.toUnicode schema tables
    exporter.dbType
  obtain ⟨s, hs⟩ := Sql.exists_writeSql m.tables.toUnicode schema
    ((exporter.preambles.lookup schema).getD {}) tables exporter.dbType
  refine ⟨s, ws, hs, hws, ?_⟩
  rw [Sql.SqlExporter.writeTables]
  simp only [hlookup, hs, hws, Option.bind_eq_bind, Option.bind_some, Option.pure_def]
  rfl

variable (tables) in
/-- Writing the tables of one more schema, whose statements before the tables are waiting. -/
lemma exists_writeTables (hapart : Apart m names)
    (hfiles : Files m names text statements disk done w.disk)
    (hwaits : Waits m names (schema :: done) exporter w.disk)
    (hname : (schema, name) ∈ names) (hschema : schema ∉ done) {i : ι}
    (hlookup : exporter.files.lookup schema = some (name, ⟨i, 0⟩))
    (hresolve : w.disk.dir.resolve (mainKey m (schema, name)) = some i)
    (htext : text schema = Sql.writeSql m.tables.toUnicode schema
      ((exporter.preambles.lookup schema).getD {}) tables exporter.dbType)
    (hstatements : statements schema = tables.flatMap TableDef.ddlCrossSchema) :
    ∃ exporter' w', exporter.writeTables m schema tables w = some (exporter', w') ∧
      exporter'.dbType = exporter.dbType ∧
      Files m names text statements disk (schema :: done) w'.disk ∧
      Waits m names (schema :: done) exporter' w'.disk := by
  obtain ⟨s, ws, hs, -, hwrite⟩ := exists_writeTables_eq m w tables hlookup
  have hempty : w.disk.contents i = [] := by
    have hread := hfiles.main (schema, name) hname
    rw [if_neg hschema, Disk.read, hresolve, Option.map_some] at hread
    exact Option.some_inj.mp hread
  have hlinks : (w.disk.write ⟨i, 0⟩ s).2.dir.NoLinks := hwaits.noLinks
  refine ⟨_, _, hwrite, rfl, hfiles.step hapart hname fun k => ?_, ?_, fun schema' hdone => ?_,
    fun p hp hdone => ?_⟩
  · have hnew : overwrite [] 0 s = s := overwrite_length [] s
    rw [Sql.read_writeCrossSchemaFile hlinks, Disk.read_write hwaits.noLinks hresolve, hempty,
      hstatements, htext, hs, hnew]
    rfl
  · exact Sql.noLinks_writeCrossSchemaFile hlinks _ _ _
  · have hne : schema' ≠ schema := fun heq => hdone (heq ▸ List.mem_cons_self)
    exact (SortedMap.lookup_erase_of_ne hne).trans (hwaits.preamble schema' hdone)
  · have hne : p.1 ≠ schema := fun heq => hdone (heq ▸ List.mem_cons_self)
    obtain ⟨j, hj, hfile⟩ := hwaits.file p hp hdone
    refine ⟨j, (SortedMap.lookup_insert_of_ne hne).trans hj, ?_⟩
    rw [Sql.resolve_writeCrossSchemaFile (hapart.mainKey_ne_crossKey hp hname)]
    exact hfile

end Loop

/-! ### What the run writes -/

section Database

variable (db : DbClient ε) (config : RunConfig) (schema : Str)

/-- The tables of a schema that the client lists, or its error. -/
def listed : Except ε (List TableDef) :=
  (db.getTables schema (config.exceptTables.getD [])).result

/-- The tables of a schema with what was fetched for them. -/
def enrichedTables : List TableDef :=
  match listed db config schema with
  | .ok tables => tables.map (enriched db schema config.outputFormat)
  | .error _ => []

/-- The objects of a schema, none when they could not be fetched. -/
def preambleOf : SchemaDdl :=
  match (db.getSchemaDdl schema).result with
  | .ok ddl => ddl
  | .error _ => {}

/-- The text of the file of a schema. -/
def sqlText (u : Unicode) : Option Str :=
  Sql.writeSql u schema (preambleOf db schema) (enrichedTables db config schema) config.dbType

def crossSchemaStatements : List Str :=
  (enrichedTables db config schema).flatMap TableDef.ddlCrossSchema

end Database

section Loop

variable [DecidableEq κ] [DecidableEq ι] {m : Machine κ ι} {names : List (Str × Str)}
  {db : DbClient ε} {slow : Str → List TableDef → ℕ → Bool} {config : RunConfig} {disk : Disk κ ι}
  {done : List Str} {exporter : Sql.SqlExporter ι} {w : World κ ι} {schema name : Str}

/-- The files of a run over `done`. -/
abbrev SqlFiles (m : Machine κ ι) (db : DbClient ε) (config : RunConfig)
    (names : List (Str × Str)) (disk : Disk κ ι) (done : List Str) (d : Disk κ ι) : Prop :=
  Files m names (fun schema => sqlText db config schema m.tables.toUnicode)
    (crossSchemaStatements db config) disk done d

omit [DecidableEq κ] [DecidableEq ι] in
/-- The preamble waits for its schema. -/
lemma fetchPreamble_eq (db : DbClient ε) (w : World κ ι) (hformat : config.outputFormat = .sql)
    (hnone : exporter.preambles.lookup schema = none) :
    ∃ exporter' w', fetchPreamble db config schema (.sql exporter) w = (.sql exporter', w') ∧
      w'.disk = w.disk ∧ exporter'.files = exporter.files ∧ exporter'.dbType = exporter.dbType ∧
      (exporter'.preambles.lookup schema).getD {} = preambleOf db schema ∧
      ∀ schema', schema' ≠ schema →
        exporter'.preambles.lookup schema' = exporter.preambles.lookup schema' := by
  rw [fetchPreamble, if_pos hformat, preambleOf]
  dsimp only
  cases (db.getSchemaDdl schema).result with
  | ok ddl =>
    refine ⟨exporter.setSchemaPreamble schema ddl, _, rfl, rfl, rfl, rfl, ?_, fun _ h => ?_⟩
    · rw [Sql.SqlExporter.setSchemaPreamble, SortedMap.lookup_insert_self, Option.getD_some]
    · exact SortedMap.lookup_insert_of_ne h
  | error e =>
    refine ⟨exporter, _, rfl, rfl, rfl, rfl, ?_, fun _ _ => rfl⟩
    rw [hnone, Option.getD_none]

/-- One more schema whose tables are listed. -/
lemma exists_exportSchema (hapart : Apart m names) (hformat : config.outputFormat = .sql)
    (hdb : exporter.dbType = config.dbType)
    (hfiles : SqlFiles m db config names disk done w.disk)
    (hwaits : Waits m names done exporter w.disk) (hname : (schema, name) ∈ names)
    (hschema : schema ∉ done) {tables : List TableDef}
    (hlisted : listed db config schema = .ok tables) :
    ∃ exporter' w', exportSchema m db (serialMetadata db config.outputFormat slow) config schema
        (.sql exporter) w = some (.ok (.sql exporter'), w') ∧
      exporter'.dbType = config.dbType ∧
      SqlFiles m db config names disk (schema :: done) w'.disk ∧
      Waits m names (schema :: done) exporter' w'.disk := by
  obtain ⟨exporter₁, w₁, hfetch, hdisk, hopen, hdb₁, hpreamble, hothers⟩ :=
    fetchPreamble_eq db ((w.warned (db.getTables schema
      (config.exceptTables.getD [])).warnings).warned (warningsOf
        (serialMetadata db config.outputFormat slow schema tables).2)) hformat
      (hwaits.preamble schema hschema)
  have hdisk₁ : w₁.disk = w.disk := hdisk
  obtain ⟨i, hlookup, hresolve⟩ := hwaits.file (schema, name) hname hschema
  have htables : enrichedTables db config schema =
      (serialMetadata db config.outputFormat slow schema tables).1 := by
    rw [enrichedTables, hlisted]
    exact results_tasksOf.symm
  have hwaits₁ : Waits m names (schema :: done) exporter₁ w₁.disk := by
    rw [hdisk₁]
    refine ⟨hwaits.noLinks, fun schema' hdone => ?_, fun p hp hdone => ?_⟩
    · rw [List.mem_cons, not_or] at hdone
      rw [hothers schema' hdone.1, hwaits.preamble schema' hdone.2]
    · rw [hopen]
      exact hwaits.file p hp fun hmem => hdone (List.mem_cons_of_mem _ hmem)
  obtain ⟨exporter', w', hwrite, hdb', hfiles', hwaits'⟩ := exists_writeTables
    (serialMetadata db config.outputFormat slow schema tables).1 hapart
    (hdisk₁ ▸ hfiles) hwaits₁ hname hschema (hopen ▸ hlookup) (hdisk₁ ▸ hresolve)
    (by rw [hpreamble, hdb₁, hdb, ← htables]; rfl)
    (by rw [crossSchemaStatements, htables])
  refine ⟨exporter', w', ?_, hdb'.trans (hdb₁.trans hdb), hfiles', hwaits'⟩
  rw [exportSchema]
  rw [listed] at hlisted
  simp only [hlisted, hfetch, Exporter.writeTables, hwrite, Option.map_some]
  rfl

omit [DecidableEq ι] in
lemma Files.congr {text : Str → Option Str} {statements : Str → List Str} {done' : List Str}
    {d : Disk κ ι} (h : Files m names text statements disk done d)
    (hdone : ∀ schema, schema ∈ done ↔ schema ∈ done') :
    Files m names text statements disk done' d := by
  refine ⟨fun p hp => ?_, fun p hp => ?_, h.other⟩
  · simp only [← hdone]
    exact h.main p hp
  · simp only [← hdone]
    exact h.cross p hp

/-- The schemas are exported up to the first whose tables cannot be listed. -/
lemma exists_exportSchemas (hapart : Apart m names) (hformat : config.outputFormat = .sql)
    (hdb : exporter.dbType = config.dbType)
    (hfiles : SqlFiles m db config names disk done w.disk)
    (hwaits : Waits m names done exporter w.disk) {rest : List Str}
    (hrest : ∀ schema ∈ rest, ∃ name, (schema, name) ∈ names)
    (hnodup : (rest ++ done).Nodup) :
    ∃ r w', exportSchemas m db (serialMetadata db config.outputFormat slow) config rest
        (.sql exporter) w = some (r, w') ∧
      SqlFiles m db config names disk
        ((rest.takeWhile fun schema => (listed db config schema).isOk) ++ done) w'.disk ∧
      w'.disk.dir.NoLinks ∧
      ((∃ exporter', r = .ok (.sql exporter') ∧
          ∀ schema ∈ rest, (listed db config schema).isOk = true) ∨
        ∃ schema e, rest.find? (fun schema => !(listed db config schema).isOk) = some schema ∧
          listed db config schema = .error e ∧ r = .error (.tables schema e)) := by
  induction rest generalizing done exporter w with
  | nil =>
    refine ⟨_, w, rfl, hfiles, hwaits.noLinks, .inl ⟨exporter, rfl, fun schema hschema => ?_⟩⟩
    exact absurd hschema List.not_mem_nil
  | cons schema rest ih =>
    obtain ⟨name, hname⟩ := hrest schema List.mem_cons_self
    have hschema : schema ∉ done := fun hmem =>
      (List.nodup_cons.mp hnodup).1 (List.mem_append_right _ hmem)
    cases hlisted : listed db config schema with
    | error e =>
      have herror : (db.getTables schema (config.exceptTables.getD [])).result = .error e := hlisted
      refine ⟨.error (.tables schema e), w.warned
        (db.getTables schema (config.exceptTables.getD [])).warnings, ?_, ?_,
        hwaits.noLinks, .inr ⟨schema, e, ?_, hlisted, rfl⟩⟩
      · rw [exportSchemas, exportSchema]
        simp only [herror]
        rfl
      · rw [List.takeWhile_cons_of_neg (by rw [hlisted]; exact Bool.false_ne_true)]
        exact hfiles
      · rw [List.find?_cons_of_pos (by rw [hlisted]; rfl)]
    | ok tables =>
      obtain ⟨exporter₁, w₁, hstep, hdb₁, hfiles₁, hwaits₁⟩ :=
        exists_exportSchema hapart hformat hdb hfiles hwaits hname hschema hlisted
      obtain ⟨r, w', hrun, hfiles', hlinks, hresult⟩ := ih hdb₁ hfiles₁ hwaits₁
        (fun s hs => hrest s (List.mem_cons_of_mem _ hs))
        (List.perm_middle.nodup_iff.mpr hnodup)
      refine ⟨r, w', ?_, ?_, hlinks, ?_⟩
      · rw [exportSchemas, hstep]
        exact hrun
      · rw [List.takeWhile_cons_of_pos (by rw [hlisted]; rfl)]
        exact hfiles'.congr fun s => List.perm_middle.mem_iff
      · rw [List.find?_cons_of_neg (by rw [hlisted]; exact Bool.false_ne_true)]
        refine hresult.imp_left ?_
        rintro ⟨exporter', hr, hok⟩
        exact ⟨exporter', hr, List.forall_mem_cons.mpr ⟨by rw [hlisted]; rfl, hok⟩⟩

end Loop

/-! ### The whole run -/

section Run

variable [DecidableEq κ] [DecidableEq ι] {m : Machine κ ι} {catalog : SchemaCatalog}
  {config : RunConfig} {w : World κ ι}

omit [DecidableEq κ] [DecidableEq ι] in
/-- On a file system that tells names apart up to case, the names of a run stand for different
files. -/
lemma exists_apart (hfuel : catalog.keys.length ≤ m.fuel)
    (hlimit : catalog.keys.length ≤ m.overflow.limit + 1)
    (hfold : DiscernsCase m.fs m.tables.toCaseTables)
    (hhash : Set.InjOn m.hash (HashedStems m.tables.toCaseTables m.overflow m.hash
      (sourceLabel config) catalog.keys)) :
    ∃ names, schemaFilenames m.tables.toCaseTables m.overflow m.hash (sourceLabel config) "sql"
        m.fuel catalog.keys = some names ∧
      names.map Prod.fst = catalog.keys.insertionSort (· ≤ ·) ∧ Apart m names := by
  obtain ⟨names, hrun, hfst, hkeys⟩ := exists_names_of_run hlimit hhash
  refine ⟨names, hrun _ hfuel, hfst, ?_, ?_⟩
  · rw [hfst]
    exact (List.perm_insertionSort _ _).nodup_iff.mpr catalog.nodup
  · -- names that are one for the file system are equal in lower case
    rw [List.nodup_append] at hkeys ⊢
    obtain ⟨hmain, hcross, hapart⟩ := hkeys
    rw [List.Nodup, List.pairwise_map] at hmain hcross
    refine ⟨List.pairwise_map.mpr (hmain.imp fun h heq => h (hfold _ _ heq)),
      List.pairwise_map.mpr (hcross.imp fun h heq => h (hfold _ _ heq)), ?_⟩
    intro k hk k' hk' heq
    obtain ⟨p, hp, rfl⟩ := List.mem_map.mp hk
    obtain ⟨q, hq, rfl⟩ := List.mem_map.mp hk'
    exact hapart _ (List.mem_map_of_mem hp) _ (List.mem_map_of_mem hq) (hfold _ _ heq)

/-- After the setup every schema has an empty file. -/
lemma exists_setup {names : List (Str × Str)}
    (hnames : schemaFilenames m.tables.toCaseTables m.overflow m.hash (sourceLabel config) "sql"
      m.fuel catalog.keys = some names) (hapart : Apart m names) (hdisk : w.disk.dir.NoLinks)
    (db : DbClient ε) :
    ∃ exporter w', ({} : Sql.SqlExporter ι).setup m catalog config w = some (exporter, w') ∧
      exporter.dbType = config.dbType ∧ SqlFiles m db config names w.disk [] w'.disk ∧
      Waits m names [] exporter w'.disk := by
  obtain ⟨searches, hsearch, hmap⟩ := Option.map_eq_some_iff.mp hnames
  obtain ⟨st, hst, hemptied, -, hperm⟩ := exists_foldlM_openSchemaFileOn m.platform m.overflow
    m.hash (sourceLabel config) "sql" (filenameWarnings (ε := Empty) searches) hdisk hapart.schemas
    hapart.keys.of_append_left
  have hmem : ∀ p ∈ names, ∃ e ∈ st.files.entries, e.1 = p.1 ∧ e.2.1 = p.2 := by
    intro p hp
    obtain ⟨e, he, rfl⟩ := List.mem_map.mp (hperm.mem_iff.mpr hp)
    exact ⟨e, he, rfl, rfl⟩
  have hsetup : ({} : Sql.SqlExporter ι).setup m catalog config w = some (
      { dbType := config.dbType, files := st.files },
      { w with disk := st.disk }.warned st.warnings) := by
    have hopened : createSchemaFilesOn (ε := Empty) m.platform m.fs m.tables.toCaseTables m.overflow
        m.hash (sourceLabel config) "sql" m.fuel w.disk catalog.keys = some st := by
      rw [createSchemaFilesOn, hsearch, Option.bind_eq_bind, Option.bind_some, hmap]
      exact hst m.fuel
    rw [Sql.SqlExporter.setup, hopened]
    rfl
  refine ⟨_, _, hsetup, rfl, ⟨fun p hp => ?_, fun p hp => ?_, fun k hk => ?_⟩,
    ⟨hemptied.noLinks hdisk, fun schema _ => rfl, fun p hp _ => ?_⟩⟩
  · obtain ⟨e, he, -, hname⟩ := hmem p hp
    rw [if_neg List.not_mem_nil, mainKey, ← hname]
    exact hemptied.read_name he
  · rw [if_neg List.not_mem_nil]
    refine hemptied.read_eq hdisk fun e he => ?_
    have hp' : (e.1, e.2.1) ∈ names := hperm.mem_iff.mp (List.mem_map_of_mem he)
    exact hapart.mainKey_ne_crossKey hp' hp
  · refine hemptied.read_eq hdisk fun e he => ?_
    have hp' : (e.1, e.2.1) ∈ names := hperm.mem_iff.mp (List.mem_map_of_mem he)
    exact (hk _ hp').1
  · obtain ⟨e, he, hschema, hname⟩ := hmem p hp
    obtain ⟨schema, name, file, position⟩ := e
    obtain rfl : position = 0 := hemptied.position_eq _ he
    refine ⟨file, ?_, ?_⟩
    · rw [← hschema, ← hname]
      exact SortedMap.lookup_eq_some_of_mem he
    · rw [mainKey, ← hname]
      exact hemptied.resolve_eq _ he

omit [DecidableEq κ] [DecidableEq ι] in
lemma conclude_spec (strict : Bool) {r : Except (RunError ε) Unit} {w' : World κ ι}
    (h : conclude strict w = (r, w')) :
    w'.disk = w.disk ∧ w.warn.warnings ≤ w'.warn.warnings ∧
      (r = .ok () ↔ strict = false ∨ w'.warn.warnings = 0) := by
  rw [conclude_eq] at h
  split_ifs at h with hzero hstrict
  · cases h
    exact ⟨rfl, le_rfl, iff_of_true rfl (.inr hzero)⟩
  · cases h
    refine ⟨rfl, Nat.le_succ _, iff_of_false (by simp) ?_⟩
    rintro (hfalse | hnone)
    · rw [hstrict] at hfalse
      cases hfalse
    · exact Nat.succ_ne_zero _ hnone
  · cases h
    exact ⟨rfl, Nat.le_succ _, iff_of_true rfl (.inl (Bool.eq_false_of_not_eq_true hstrict))⟩

variable {names : List (Str × Str)} {db : DbClient ε}

/-- How a run over listed and unlisted schemas ends, given their order. -/
def EndsAt (db : DbClient ε) (config : RunConfig) (strict : Bool) (schemas : List Str)
    (r : Except (RunError ε) Unit) (w : World κ ι) : Prop :=
  (∀ schema ∈ schemas, (listed db config schema).isOk = true) ∧
      (r = .ok () ↔ strict = false ∨ w.warn.warnings = 0) ∨
    ∃ schema e, schemas.find? (fun schema => !(listed db config schema).isOk) = some schema ∧
      listed db config schema = .error e ∧ r = .error (.tables schema e)

/-- A run from the list of schemas on, given the names of the files. -/
lemma exists_exportCatalog (hnames : schemaFilenames m.tables.toCaseTables m.overflow m.hash
      (sourceLabel config) "sql" m.fuel catalog.keys = some names)
    (hfst : names.map Prod.fst = catalog.keys.insertionSort (· ≤ ·)) (hapart : Apart m names)
    (scheduler : Scheduler db config.outputFormat) (hformat : config.outputFormat = .sql)
    (hne : catalog.keys ≠ []) (hdisk : w.disk.dir.NoLinks) (strict : Bool) :
    ∃ r w', exportCatalog m db scheduler.metadata config strict catalog w = some (r, w') ∧
      SqlFiles m db config names w.disk ((names.map Prod.fst).takeWhile
        fun schema => (listed db config schema).isOk) w'.disk ∧
      w'.disk.dir.NoLinks ∧ EndsAt db config strict (names.map Prod.fst) r w' := by
  obtain ⟨exporter, w₁, hsetup, hdb, hfiles, hwaits⟩ := exists_setup hnames hapart hdisk db
  have hrest : ∀ schema ∈ names.map Prod.fst, ∃ name, (schema, name) ∈ names := by
    intro schema hschema
    obtain ⟨p, hp, rfl⟩ := List.mem_map.mp hschema
    exact ⟨p.2, hp⟩
  obtain ⟨r, w₂, hrun, hfiles₂, hlinks, hresult⟩ := exists_exportSchemas hapart hformat hdb hfiles
    hwaits hrest (by rw [List.append_nil]; exact hapart.schemas)
  rw [List.append_nil] at hfiles₂
  rw [← exportSchemas_congr scheduler.agree] at hrun
  have hstart : (createExporter config.outputFormat : Exporter ι).setup m catalog config w =
      some (.sql exporter, w₁) := by
    rw [hformat]
    exact congrArg (Option.map _) hsetup
  rw [exportCatalog, if_neg hne, ← hfst]
  simp only [hstart, hrun, Option.bind_eq_bind, Option.bind_some, Option.pure_def]
  rcases hresult with ⟨exporter', rfl, hok⟩ | ⟨schema, e, hfind, herror, rfl⟩
  · obtain ⟨hdisk', -, hr⟩ := conclude_spec (ε := ε) (w := w₂) strict rfl
    exact ⟨_, _, rfl, hdisk' ▸ hfiles₂, hdisk' ▸ hlinks, .inl ⟨hok, hr⟩⟩
  · exact ⟨_, w₂, rfl, hfiles₂, hlinks, .inr ⟨schema, e, hfind, herror, rfl⟩⟩

/-- The files of a run with SQL. The schemas are exported in their order, up to the first whose
tables cannot be listed, which is the error of the run. Those behind it have empty files, and no
other file is touched. -/
theorem exportCatalog_sqlFiles (m : Machine κ ι) (db : DbClient ε) (config : RunConfig)
    (strict : Bool) (catalog : SchemaCatalog) (w : World κ ι)
    (scheduler : Scheduler db config.outputFormat) (hformat : config.outputFormat = .sql)
    (hne : catalog.keys ≠ []) (hfuel : catalog.keys.length ≤ m.fuel)
    (hlimit : catalog.keys.length ≤ m.overflow.limit + 1)
    (hfold : DiscernsCase m.fs m.tables.toCaseTables) (hdisk : w.disk.dir.NoLinks)
    (hhash : Set.InjOn m.hash (HashedStems m.tables.toCaseTables m.overflow m.hash
      (sourceLabel config) catalog.keys)) :
    ∃ names r w', schemaFilenames m.tables.toCaseTables m.overflow m.hash (sourceLabel config) "sql"
        m.fuel catalog.keys = some names ∧
      names.map Prod.fst = catalog.keys.insertionSort (· ≤ ·) ∧ Apart m names ∧
      exportCatalog m db scheduler.metadata config strict catalog w = some (r, w') ∧
      SqlFiles m db config names w.disk ((names.map Prod.fst).takeWhile
        fun schema => (listed db config schema).isOk) w'.disk ∧
      EndsAt db config strict (names.map Prod.fst) r w' := by
  obtain ⟨names, hnames, hfst, hapart⟩ := exists_apart hfuel hlimit hfold hhash
  obtain ⟨r, w', hrun, hfiles, -, hends⟩ :=
    exists_exportCatalog hnames hfst hapart scheduler hformat hne hdisk strict
  exact ⟨names, r, w', hnames, hfst, hapart, hrun, hfiles, hends⟩

/-- A machine whose file system takes no two names for one. -/
def plainMachine : Machine Str ℕ where
  platform := .unix
  fs := plainFileSystem
  tables := .asciiOnly
  hash _ := 0
  overflow := .panics
  refuse _ := none
  saveWorkbook _ := []
  fuel := 2

/-- A database with two schemas. In the first there is a table without statements, and the tables of
the second are listed or not. -/
def slashClient (listsAll : Bool) : DbClient Unit where
  getSchemas _ := { result := .ok ⟨["x_y", "x/y"], by decide⟩ }
  getTables schema _ :=
    { result := if listsAll ∨ schema = "x/y" then .ok [⟨"t", {}, [], [], [], none, none, [], []⟩]
        else .error () }
  getColumns _ _ := { result := .error () }
  getIndexes _ _ := { result := .error () }
  getConstraints _ _ := { result := .error () }
  getViewInfo _ _ := { result := .error () }
  getTableDdl _ _ := { result := .ok { create := "CREATE TABLE t ();" } }
  getSchemaDdl _ := { result := .ok {} }

def slashConfig : RunConfig where
  endpoint := "h"
  port := 5432
  user := "u"
  password := []
  targetDb := none
  exceptTables := none
  outputFormat := .sql
  dbType := .postgres
  database := none
  tls := ⟨none, none⟩
  skipDefiner := false

def slashCatalog : SchemaCatalog := ⟨["x_y", "x/y"], by decide⟩

/-- No file, and no warning so far. -/
def emptyWorld : World Str ℕ := ⟨⟨[], fun _ => []⟩, {}⟩

lemma noLinks_emptyWorld : emptyWorld.disk.dir.NoLinks := by
  intro k k' i hk
  cases hk

lemma hash_slash : Set.InjOn plainMachine.hash (HashedStems plainMachine.tables.toCaseTables
    plainMachine.overflow plainMachine.hash (sourceLabel slashConfig) slashCatalog.keys) := by
  have hshort : ShortNames (sourceLabel slashConfig) slashCatalog.keys := by
    rw [ShortNames]
    decide +kernel
  exact hshort.injOn

lemma discernsCase_plain : DiscernsCase plainMachine.fs plainMachine.tables.toCaseTables :=
  fun _ _ h => congrArg _ h

theorem exportCatalog_sqlFiles_slash :
    ∃ (scheduler : Scheduler (slashClient false) slashConfig.outputFormat)
      (names : List (Str × Str)) (r : Except (RunError Unit) Unit) (w' : World Str ℕ),
      schemaFilenames plainMachine.tables.toCaseTables plainMachine.overflow plainMachine.hash
        (sourceLabel slashConfig) "sql" plainMachine.fuel slashCatalog.keys = some names ∧
      names.map Prod.fst = slashCatalog.keys.insertionSort (· ≤ ·) ∧ Apart plainMachine names ∧
      exportCatalog plainMachine (slashClient false) scheduler.metadata slashConfig true
        slashCatalog emptyWorld = some (r, w') ∧
      SqlFiles plainMachine (slashClient false) slashConfig names emptyWorld.disk
        ((names.map Prod.fst).takeWhile
          fun schema => (listed (slashClient false) slashConfig schema).isOk) w'.disk ∧
      EndsAt (slashClient false) slashConfig true (names.map Prod.fst) r w' :=
  ⟨serialScheduler _ _ fun _ _ _ => false, exportCatalog_sqlFiles plainMachine (slashClient false)
    slashConfig true slashCatalog emptyWorld _ rfl (by decide) (by decide) (by decide)
    discernsCase_plain noLinks_emptyWorld hash_slash⟩

/-! ### A run after another one -/

omit [DecidableEq ι] in
/-- The files of a complete run are the same whatever was in its files before. -/
lemma Files.read_eq {text : Str → Option Str} {statements : Str → List Str}
    {disk disk' d d' : Disk κ ι} (h : Files m names text statements disk (names.map Prod.fst) d)
    (h' : Files m names text statements disk' (names.map Prod.fst) d')
    (hother : ∀ k, (∀ p ∈ names, mainKey m p ≠ k ∧ crossKeyOf m p ≠ k) →
      disk.read k = disk'.read k) (k : κ) : d.read k = d'.read k := by
  by_cases hk : ∀ p ∈ names, mainKey m p ≠ k ∧ crossKeyOf m p ≠ k
  · rw [h.other k hk, h'.other k hk, hother k hk]
  · simp only [not_forall, not_and_or, not_not] at hk
    obtain ⟨p, hp, hmain | hcross⟩ := hk
    · rw [← hmain, h.main p hp, h'.main p hp]
    · rw [← hcross, h.cross p hp, h'.cross p hp, if_pos (List.mem_map_of_mem hp),
        if_pos (List.mem_map_of_mem hp)]

/-- A run over the files of an earlier run for the same source and schemas, of whatever database and
however it ended, leaves what it leaves without the earlier run, when all tables are listed. -/
theorem exportCatalog_after_exportCatalog (m : Machine κ ι) (db₁ db₂ : DbClient ε)
    (config₁ config₂ : RunConfig) (strict : Bool) (catalog : SchemaCatalog) (w : World κ ι)
    (warn : WarnState) (scheduler₁ : Scheduler db₁ config₁.outputFormat)
    (scheduler₂ scheduler₃ : Scheduler db₂ config₂.outputFormat)
    (hformat₁ : config₁.outputFormat = .sql) (hformat₂ : config₂.outputFormat = .sql)
    (hlabel : sourceLabel config₁ = sourceLabel config₂)
    (hne : catalog.keys ≠ []) (hfuel : catalog.keys.length ≤ m.fuel)
    (hlimit : catalog.keys.length ≤ m.overflow.limit + 1)
    (hfold : DiscernsCase m.fs m.tables.toCaseTables) (hdisk : w.disk.dir.NoLinks)
    (hhash : Set.InjOn m.hash (HashedStems m.tables.toCaseTables m.overflow m.hash
      (sourceLabel config₂) catalog.keys))
    (hok : ∀ schema ∈ catalog.keys, (listed db₂ config₂ schema).isOk = true) :
    ∃ r₁ w₁ r₂ w₂ r₃ w₃,
      exportCatalog m db₁ scheduler₁.metadata config₁ strict catalog w = some (r₁, w₁) ∧
      exportCatalog m db₂ scheduler₂.metadata config₂ strict catalog { w₁ with warn } =
        some (r₂, w₂) ∧
      exportCatalog m db₂ scheduler₃.metadata config₂ strict catalog { w with warn } =
        some (r₃, w₃) ∧
      ∀ k, w₂.disk.read k = w₃.disk.read k := by
  obtain ⟨names, hnames, hfst, hapart⟩ := exists_apart hfuel hlimit hfold hhash
  have hnames₁ := hnames
  rw [← hlabel] at hnames₁
  obtain ⟨r₁, w₁, hrun₁, hfiles₁, hlinks, -⟩ :=
    exists_exportCatalog hnames₁ hfst hapart scheduler₁ hformat₁ hne hdisk strict
  have hlinks' : ({ w₁ with warn } : World κ ι).disk.dir.NoLinks := hlinks
  have hdisk' : ({ w with warn } : World κ ι).disk.dir.NoLinks := hdisk
  obtain ⟨r₂, w₂, hrun₂, hfiles₂, -⟩ :=
    exists_exportCatalog hnames hfst hapart scheduler₂ hformat₂ hne hlinks' strict
  obtain ⟨r₃, w₃, hrun₃, hfiles₃, -⟩ :=
    exists_exportCatalog hnames hfst hapart scheduler₃ hformat₂ hne hdisk' strict
  have hall : (names.map Prod.fst).takeWhile (fun schema => (listed db₂ config₂ schema).isOk) =
      names.map Prod.fst := by
    rw [List.takeWhile_eq_self_iff, hfst]
    exact fun schema hschema => hok schema ((List.perm_insertionSort _ _).mem_iff.mp hschema)
  rw [hall] at hfiles₂ hfiles₃
  exact ⟨r₁, w₁, r₂, w₂, r₃, w₃, hrun₁, hrun₂, hrun₃,
    Files.read_eq hfiles₂ hfiles₃ fun k hk => hfiles₁.other k hk⟩

theorem exportCatalog_after_exportCatalog_slash :
    ∃ (scheduler₁ : Scheduler (slashClient false) slashConfig.outputFormat)
      (scheduler₂ scheduler₃ : Scheduler (slashClient true) slashConfig.outputFormat)
      (r₁ : Except (RunError Unit) Unit) (w₁ : World Str ℕ) (r₂ : Except (RunError Unit) Unit)
      (w₂ : World Str ℕ) (r₃ : Except (RunError Unit) Unit) (w₃ : World Str ℕ),
      exportCatalog plainMachine (slashClient false) scheduler₁.metadata slashConfig true
        slashCatalog emptyWorld = some (r₁, w₁) ∧
      exportCatalog plainMachine (slashClient true) scheduler₂.metadata slashConfig true
        slashCatalog { w₁ with warn := {} } = some (r₂, w₂) ∧
      exportCatalog plainMachine (slashClient true) scheduler₃.metadata slashConfig true
        slashCatalog { emptyWorld with warn := {} } = some (r₃, w₃) ∧
      ∀ k, w₂.disk.read k = w₃.disk.read k :=
  ⟨serialScheduler _ _ fun _ _ _ => false, serialScheduler _ _ fun _ _ _ => true,
    serialScheduler _ _ fun _ _ _ => false,
    exportCatalog_after_exportCatalog plainMachine (slashClient false) (slashClient true)
      slashConfig slashConfig true slashCatalog emptyWorld {} _ _ _ rfl rfl rfl (by decide)
      (by decide) (by decide) discernsCase_plain noLinks_emptyWorld hash_slash fun schema _ => rfl⟩

end Run

end TdExport
