import TdExport.Run.SqlFiles

/-!
# What `--strict` promises

A run with `--strict` that succeeds has counted no warning, and whatever is missing from the output
is counted: so nothing is missing. Every query succeeded without a warning, and every name can be
written.
-/

namespace TdExport

open Core

variable {ε κ ι : Type}

/-- Nothing is missing of a schema. -/
structure CompleteSchema (db : DbClient ε) (config : RunConfig) (schema : Str) : Prop where
  tables : ∃ tables, db.getTables schema (config.exceptTables.getD []) = ⟨[], .ok tables⟩ ∧
    ∀ t ∈ tables, Complete db schema t config.outputFormat
        (enriched db schema config.outputFormat t) ∧
      (config.outputFormat = .sql → ∃ name, Sql.quoteTableName config.dbType t.tableName = .ok name)
  objects : config.outputFormat = .sql → ∃ ddl, db.getSchemaDdl schema = ⟨[], .ok ddl⟩
  name : config.outputFormat = .sql → config.dbType = .postgres →
    ∃ name, quotePgIdentifier schema = .ok name

/-! ### No warning so far -/

section Warned

variable {w : World κ ι} {ws : List (Warning ε)}

lemma warnings_le_warned : w.warn.warnings ≤ (w.warned ws).warn.warnings :=
  WarnState.warnings_le_recordAll

lemma eq_nil_of_warned (hfresh : w.warn = {}) (hzero : (w.warned ws).warn.warnings = 0) :
    ws = [] := by
  rw [World.warned, hfresh] at hzero
  exact WarnState.warnings_recordAll_eq_zero_iff.mp hzero

end Warned

/-! ### The exporter -/

section Sql

variable {u : Unicode} {schema : Str} {tables : List TableDef} {dbType : DbType}

lemma exists_name_of_relationWarnings {t : TableDef}
    (h : Sql.relationWarnings (ε := ε) schema dbType t = []) :
    ∃ name, Sql.quoteTableName dbType t.tableName = .ok name := by
  rw [Sql.relationWarnings] at h
  cases hname : Sql.quoteTableName dbType t.tableName with
  | ok name => exact ⟨name, rfl⟩
  | error e =>
    rw [hname] at h
    cases h

/-- Without a warning of `write_sql` every name can be written. -/
lemma names_of_writeSqlWarnings
    (h : Sql.writeSqlWarnings (ε := ε) u schema tables dbType = some []) :
    (dbType = .postgres → ∃ name, quotePgIdentifier schema = .ok name) ∧
      ∀ t ∈ tables, ∃ name, Sql.quoteTableName dbType t.tableName = .ok name := by
  obtain ⟨views, hviews, hperm⟩ :=
    Sql.orderViews_perm u schema (tables.filter fun t => t.general.isView) dbType
  rw [Sql.writeSqlWarnings, hviews] at h
  obtain ⟨hfirst, hafter⟩ := List.append_eq_nil_iff.mp (Option.some_inj.mp h)
  obtain ⟨hschema, hbase⟩ := List.append_eq_nil_iff.mp hfirst
  rw [List.flatMap_eq_nil_iff] at hbase hafter
  refine ⟨?_, fun t ht => ?_⟩
  · rintro rfl
    rw [Sql.schemaWarnings] at hschema
    cases hname : quotePgIdentifier schema with
    | ok name => exact ⟨name, rfl⟩
    | error e =>
      rw [hname] at hschema
      cases hschema
  · apply exists_name_of_relationWarnings (ε := ε)
    by_cases hview : t.general.isView = true
    · exact hafter t (hperm.mem_iff.mpr (List.mem_filter.mpr ⟨ht, hview⟩))
    · exact hbase t (List.mem_filter.mpr ⟨ht, by simpa using hview⟩)

end Sql

/-- The exporter of a run with SQL knows the database and has a file for each of the schemas. -/
def Exporter.Ready (config : RunConfig) (schemas : List Str) : Exporter ι → Prop
  | .sql self => self.dbType = config.dbType ∧ ∀ schema ∈ schemas, (self.files.lookup schema).isSome
  | .markdown _ | .excel _ => config.outputFormat ≠ .sql

lemma isSome_lookup_insert {files : SortedMap Str (Str × Handle ι)} {schema k : Str}
    (v : Str × Handle ι) (h : (files.lookup schema).isSome) :
    ((files.insert k v).lookup schema).isSome := by
  by_cases hk : schema = k
  · rw [hk, SortedMap.lookup_insert_self]
    rfl
  · rwa [SortedMap.lookup_insert_of_ne hk]

section Loop

variable [DecidableEq κ] [DecidableEq ι] {m : Machine κ ι} {db : DbClient ε}
  {slow : Str → List TableDef → ℕ → Bool} {config : RunConfig} {schemas : List Str} {schema : Str}
  {exporter exporter' : Exporter ι} {w w' : World κ ι} {tables : List TableDef}

/-- What `write_tables` reports, and what it keeps. -/
lemma writeTables_spec (hready : exporter.Ready config schemas) (hschema : schema ∈ schemas)
    (h : exporter.writeTables m schema tables w = some (.ok (exporter', w'))) :
    ∃ ws : List (Warning Empty), w'.warn = w.warn.recordAll ws ∧ exporter'.Ready config schemas ∧
      (ws = [] → config.outputFormat = .sql →
        (config.dbType = .postgres → ∃ name, quotePgIdentifier schema = .ok name) ∧
          ∀ t ∈ tables, ∃ name, Sql.quoteTableName config.dbType t.tableName = .ok name) := by
  cases exporter with
  | excel self =>
    have h' : (self.writeTables m schema tables).map
        (fun self => (Exporter.excel (ι := ι) self, w)) = .ok (exporter', w') :=
      Option.some_inj.mp h
    cases hself : self.writeTables m schema tables with
    | error e =>
      rw [hself] at h'
      cases h'
    | ok self' =>
      rw [hself] at h'
      cases h'
      exact ⟨[], rfl, hready, fun _ hsql => absurd hsql hready⟩
  | markdown self =>
    cases h
    refine ⟨[], ?_, hready, fun _ hsql => absurd hsql hready⟩
    cases self.files.lookup schema <;> rfl
  | sql self =>
    obtain ⟨hdb, hfiles⟩ := hready
    obtain ⟨⟨name, handle⟩, hlookup⟩ := Option.isSome_iff_exists.mp (hfiles schema hschema)
    obtain ⟨s, ws, hs, hws, hwrite⟩ := exists_writeTables_eq m w tables hlookup
    rw [Exporter.writeTables, hwrite] at h
    cases h
    refine ⟨ws, rfl, ⟨hdb, fun schema' hmem => isSome_lookup_insert _ (hfiles schema' hmem)⟩, ?_⟩
    rintro rfl -
    rw [← hdb]
    exact names_of_writeSqlWarnings hws

omit [DecidableEq κ] [DecidableEq ι] in
lemma Exporter.Ready.setSchemaPreamble (hready : exporter.Ready config schemas) (ddl : SchemaDdl) :
    (exporter.setSchemaPreamble schema ddl).Ready config schemas := by
  cases exporter <;> exact hready

omit [DecidableEq κ] [DecidableEq ι] in
lemma fetchPreamble_spec (db : DbClient ε) (schema : Str) (w : World κ ι)
    (hready : exporter.Ready config schemas) :
    ∃ exporter', ∃ ws : List (Warning ε),
      fetchPreamble db config schema exporter w = (exporter', w.warned ws) ∧
      exporter'.Ready config schemas ∧
      (ws = [] → config.outputFormat = .sql → ∃ ddl, db.getSchemaDdl schema = ⟨[], .ok ddl⟩) := by
  rw [fetchPreamble]
  by_cases hsql : config.outputFormat = .sql
  · rw [if_pos hsql]
    cases hobjects : db.getSchemaDdl schema with
    | mk warnings result =>
      cases result with
      | error e =>
        refine ⟨exporter, warnings ++ [.schemaDdl schema e], ?_, hready, fun h => ?_⟩
        · simp only [World.warned_append]
        · exact absurd (List.append_eq_nil_iff.mp h).2 (List.cons_ne_nil _ _)
      | ok ddl =>
        refine ⟨_, warnings, rfl, hready.setSchemaPreamble ddl, ?_⟩
        rintro rfl -
        exact ⟨ddl, rfl⟩
  · rw [if_neg hsql]
    exact ⟨exporter, [], rfl, hready, fun _ h => absurd h hsql⟩

/-- The tables of a schema without a report are complete. -/
lemma complete_of_warningsOf (h : warningsOf
      (serialMetadata db config.outputFormat slow schema tables).2 = []) :
    ∀ t ∈ tables, Complete db schema t config.outputFormat
      (enriched db schema config.outputFormat t) := by
  intro t ht
  rw [serialMetadata, warningsOf, List.filterMap_flatMap, List.flatMap_eq_nil_iff] at h
  obtain ⟨i, hi, rfl⟩ := List.mem_iff_getElem.mp ht
  exact complete_enriched (h _ (List.mem_mapIdx.mpr ⟨i, hi, rfl⟩))

/-- One schema: what is reported is counted, and a schema without a report is complete. -/
lemma exportSchema_spec (hready : exporter.Ready config schemas) (hschema : schema ∈ schemas)
    (h : exportSchema m db (serialMetadata db config.outputFormat slow) config schema exporter w =
      some (.ok exporter', w')) :
    exporter'.Ready config schemas ∧ w.warn.warnings ≤ w'.warn.warnings ∧
      (w.warn = {} → w'.warn.warnings = 0 →
        w'.warn = {} ∧ CompleteSchema db config schema) := by
  rw [exportSchema] at h
  cases hlisted : db.getTables schema (config.exceptTables.getD []) with
  | mk warnings result =>
    cases result with
    | error e =>
      rw [hlisted] at h
      cases h
    | ok tables =>
      obtain ⟨exporter₁, objects, hfetch, hready₁, hobjects⟩ := fetchPreamble_spec db schema
        ((w.warned warnings).warned (warningsOf
          (serialMetadata db config.outputFormat slow schema tables).2)) hready
      simp only [hlisted, hfetch] at h
      obtain ⟨r, hwrite, hr⟩ := Option.map_eq_some_iff.mp h
      cases r with
      | error message => cases hr
      | ok p =>
        obtain ⟨exporter₂, w₂⟩ := p
        cases hr
        obtain ⟨names, hwarn, hready₂, hnames⟩ := writeTables_spec hready₁ hschema hwrite
        refine ⟨hready₂, ?_, fun hfresh hzero => ?_⟩
        · rw [hwarn]
          exact warnings_le_warned.trans (warnings_le_warned.trans (warnings_le_warned.trans
            WarnState.warnings_le_recordAll))
        · rw [hwarn] at hzero
          have hzero₃ := Nat.le_zero.mp (WarnState.warnings_le_recordAll.trans hzero.le)
          have hzero₂ := Nat.le_zero.mp (warnings_le_warned.trans hzero₃.le)
          have hzero₁ := Nat.le_zero.mp (warnings_le_warned.trans hzero₂.le)
          obtain rfl := eq_nil_of_warned hfresh hzero₁
          have hmetadata := eq_nil_of_warned hfresh hzero₂
          rw [hmetadata] at hwarn hzero hzero₃
          obtain rfl := eq_nil_of_warned hfresh hzero₃
          have hstart : (((w.warned ([] : List (Warning ε))).warned
            ([] : List (Warning ε))).warned ([] : List (Warning ε))).warn = {} := hfresh
          rw [hstart] at hwarn hzero
          obtain rfl := WarnState.warnings_recordAll_eq_zero_iff.mp hzero
          refine ⟨hwarn, ⟨⟨tables, hlisted, fun t ht => ⟨complete_of_warningsOf hmetadata t ht,
            fun hsql => ?_⟩⟩, hobjects rfl, fun hsql => (hnames rfl hsql).1⟩⟩
          have hsame : SameTable t (enriched db schema config.outputFormat t) :=
            sameTable_enrichTableInner
          have htables : (serialMetadata db config.outputFormat slow schema tables).1 =
              tables.map (enriched db schema config.outputFormat) := results_tasksOf
          rw [← hsame.1]
          exact (hnames rfl hsql).2 _ (htables ▸ List.mem_map_of_mem ht)

/-- The loop over the schemas. -/
lemma exportSchemas_spec {rest : List Str} (hready : exporter.Ready config schemas)
    (hrest : ∀ schema ∈ rest, schema ∈ schemas)
    (h : exportSchemas m db (serialMetadata db config.outputFormat slow) config rest exporter w =
      some (.ok exporter', w')) :
    w.warn.warnings ≤ w'.warn.warnings ∧
      (w.warn = {} → w'.warn.warnings = 0 →
        w'.warn = {} ∧ ∀ schema ∈ rest, CompleteSchema db config schema) := by
  induction rest generalizing exporter w with
  | nil =>
    cases h
    exact ⟨le_rfl, fun hfresh _ => ⟨hfresh, List.forall_mem_nil _⟩⟩
  | cons schema rest ih =>
    rw [exportSchemas] at h
    obtain ⟨⟨r, w₁⟩, hstep, h⟩ := Option.bind_eq_some_iff.mp h
    cases r with
    | error e => cases h
    | ok exporter₁ =>
      obtain ⟨hready₁, hle, hquiet⟩ :=
        exportSchema_spec hready (hrest schema List.mem_cons_self) hstep
      obtain ⟨hle', hquiet'⟩ :=
        ih hready₁ (fun s hs => hrest s (List.mem_cons_of_mem _ hs)) h
      refine ⟨hle.trans hle', fun hfresh hzero => ?_⟩
      obtain ⟨hfresh₁, hschema⟩ := hquiet hfresh (Nat.le_zero.mp (hle'.trans hzero.le))
      obtain ⟨hfresh', hall⟩ := hquiet' hfresh₁ hzero
      exact ⟨hfresh', List.forall_mem_cons.mpr ⟨hschema, hall⟩⟩

end Loop

/-! ### The whole run -/

section Run

variable [DecidableEq κ] [DecidableEq ι] {m : Machine κ ι} {db : DbClient ε}
  {slow : Str → List TableDef → ℕ → Bool} {config : RunConfig} {catalog : SchemaCatalog}
  {exporter : Exporter ι} {w w' : World κ ι}

lemma isSome_lookup_foldlM {hash : Str → UInt64} {source extn : Str} {turns : ℕ}
    {names : List (Str × Str)} {st st' : OpenFiles ε κ ι}
    (h : names.foldlM (openSchemaFileOn m.platform m.fs m.overflow hash source extn turns) st =
      some st') :
    (∀ k, (st.files.lookup k).isSome → (st'.files.lookup k).isSome) ∧
      ∀ e ∈ names, (st'.files.lookup e.1).isSome := by
  induction names generalizing st with
  | nil =>
    cases h
    exact ⟨fun _ => id, List.forall_mem_nil _⟩
  | cons entry names ih =>
    rw [List.foldlM_cons] at h
    obtain ⟨st₁, hopen, h⟩ := Option.bind_eq_some_iff.mp h
    obtain ⟨⟨s, z⟩, -, hst₁⟩ := Option.bind_eq_some_iff.mp hopen
    obtain rfl := Option.some_inj.mp hst₁
    obtain ⟨hkept, hall⟩ := ih h
    refine ⟨fun k hk => hkept k (isSome_lookup_insert _ hk), List.forall_mem_cons.mpr ⟨?_, hall⟩⟩
    apply hkept
    rw [SortedMap.lookup_insert_self]
    rfl

/-- Opening files opens one for each schema. -/
lemma isSome_lookup_createSchemaFilesOn {source extn : Str} {disk : Disk κ ι}
    {st : OpenFiles ε κ ι}
    (h : createSchemaFilesOn m.platform m.fs m.tables.toCaseTables m.overflow m.hash source extn
      m.fuel disk catalog.keys = some st) :
    ∀ schema ∈ catalog.keys, (st.files.lookup schema).isSome := by
  obtain ⟨searches, hsearch, h⟩ := Option.bind_eq_some_iff.mp h
  obtain ⟨given, -, -, hmap, rfl⟩ := exists_numbers_of_search hsearch
  rw [map_searchesOf] at h
  intro schema hschema
  have hmem : schema ∈ given.map Prod.fst := by
    rw [hmap]
    exact (List.perm_insertionSort _ _).mem_iff.mpr hschema
  obtain ⟨p, hp, rfl⟩ := List.mem_map.mp hmem
  exact (isSome_lookup_foldlM h).2 _ (List.mem_map_of_mem hp)

/-- What the setup reports. -/
lemma setup_spec (h : (createExporter config.outputFormat : Exporter ι).setup m catalog config w =
      some (exporter, w')) :
    exporter.Ready config catalog.keys ∧
      ∃ ws : List (Warning Empty), w'.warn = w.warn.recordAll ws := by
  cases hformat : config.outputFormat with
  | excel =>
    rw [hformat] at h
    obtain ⟨⟨self, w₁⟩, hself, heq⟩ := Option.map_eq_some_iff.mp h
    cases heq
    obtain ⟨names, -, hnames⟩ := Option.bind_eq_some_iff.mp hself
    cases hnames
    refine ⟨?_, _, rfl⟩
    rw [Exporter.Ready, hformat]
    exact OutputFormat.noConfusion
  | markdown =>
    rw [hformat] at h
    obtain ⟨⟨self, w₁⟩, hself, heq⟩ := Option.map_eq_some_iff.mp h
    cases heq
    obtain ⟨opened, -, hopened⟩ := Option.bind_eq_some_iff.mp hself
    cases hopened
    refine ⟨?_, _, rfl⟩
    rw [Exporter.Ready, hformat]
    exact OutputFormat.noConfusion
  | sql =>
    rw [hformat] at h
    obtain ⟨⟨self, w₁⟩, hself, heq⟩ := Option.map_eq_some_iff.mp h
    cases heq
    obtain ⟨opened, hopen, hopened⟩ := Option.bind_eq_some_iff.mp hself
    cases hopened
    exact ⟨⟨rfl, isSome_lookup_createSchemaFilesOn hopen⟩, _, rfl⟩

lemma warn_finish (exporter : Exporter ι) (w : World κ ι) :
    (exporter.finish m w).2.warn = w.warn := by
  cases exporter <;> rfl

/-- A run from the list of schemas on. -/
lemma exportCatalog_strict
    (h : exportCatalog m db (serialMetadata db config.outputFormat slow) config true catalog w =
      some (.ok (), w')) :
    w.warn.warnings = 0 ∧ w'.warn.warnings = 0 ∧ catalog.keys ≠ [] ∧
      (w.warn = {} → ∀ schema ∈ catalog.keys, CompleteSchema db config schema) := by
  rw [exportCatalog] at h
  by_cases hempty : catalog.keys = []
  · rw [if_pos hempty] at h
    cases h
  rw [if_neg hempty] at h
  obtain ⟨⟨exporter, w₁⟩, hsetup, h⟩ := Option.bind_eq_some_iff.mp h
  obtain ⟨⟨r, w₂⟩, hloop, h⟩ := Option.bind_eq_some_iff.mp h
  cases r with
  | error e => cases h
  | ok exporter₂ =>
    obtain ⟨hready, ws, hwarn⟩ := setup_spec hsetup
    have hmem : ∀ schema, schema ∈ catalog.keys.insertionSort (· ≤ ·) ↔ schema ∈ catalog.keys :=
      fun schema => (List.perm_insertionSort _ _).mem_iff
    obtain ⟨hle, hquiet⟩ := exportSchemas_spec hready (fun s => (hmem s).mp) hloop
    obtain ⟨-, hle', hr⟩ := conclude_spec true (Option.some_inj.mp h)
    have hzero : w'.warn.warnings = 0 := (hr.mp rfl).resolve_left Bool.noConfusion
    rw [warn_finish, hzero] at hle'
    have hzero₁ := Nat.le_zero.mp (hle.trans hle')
    rw [hwarn] at hzero₁
    refine ⟨Nat.le_zero.mp (WarnState.warnings_le_recordAll.trans hzero₁.le), hzero, hempty,
      fun hfresh => ?_⟩
    rw [hfresh] at hzero₁
    obtain rfl := WarnState.warnings_recordAll_eq_zero_iff.mp hzero₁
    obtain ⟨-, hall⟩ := hquiet (hwarn.trans hfresh) (Nat.le_zero.mp hle')
    exact fun schema hschema => hall schema ((hmem schema).mpr hschema)

/-- A run with its settings. -/
lemma connectAndExport_strict {connect : RunConfig → Answer ε (DbClient ε)}
    {slow : DbClient ε → OutputFormat → Str → List TableDef → ℕ → Bool} (hfresh : w.warn = {})
    (h : connectAndExport m connect (fun db format => serialMetadata db format (slow db format))
      true config w = some (.ok (), w')) :
    w'.warn.warnings = 0 ∧
      ∃ db catalog, connect config = ⟨[], .ok db⟩ ∧ db.getSchemas config = ⟨[], .ok catalog⟩ ∧
        catalog.keys ≠ [] ∧ ∀ schema ∈ catalog.keys, CompleteSchema db config schema := by
  rw [connectAndExport] at h
  cases hconnect : connect config with
  | mk connecting connected =>
    cases connected with
    | error e =>
      rw [hconnect] at h
      cases h
    | ok db =>
      simp only [hconnect, exportDatabase] at h
      cases hschemas : db.getSchemas config with
      | mk listing listed =>
        cases listed with
        | error e =>
          rw [hschemas] at h
          cases h
        | ok catalog =>
          simp only [hschemas] at h
          obtain ⟨hzero, hcounted, hne, hcomplete⟩ := exportCatalog_strict h
          have hzero₁ := Nat.le_zero.mp (warnings_le_warned.trans hzero.le)
          obtain rfl := eq_nil_of_warned hfresh hzero₁
          obtain rfl := eq_nil_of_warned (w := w.warned ([] : List (Warning ε))) hfresh hzero
          exact ⟨hcounted, db, catalog, rfl, hschemas, hne, hcomplete hfresh⟩

/-- A run with `--strict` that succeeds has reported nothing, and nothing is missing of any schema
of the database that its settings name. -/
theorem run_strict_complete (m : Machine κ ι) (connect : RunConfig → Answer ε (DbClient ε))
    (schedulers : ∀ db format, Scheduler (ε := ε) db format) (cli : Cli) (console : Console)
    (w w' : World κ ι) (hstrict : cli.strict = true) (hfresh : w.warn = {})
    (hrun : run m connect schedulers cli console w = some (.ok (), w')) :
    w'.warn.warnings = 0 ∧ ∃ overrides config rest, cli.intoOverrides = .ok overrides ∧
      (loadConfig overrides).run console = .ok (config, rest) ∧
      ∃ db catalog, connect config = ⟨[], .ok db⟩ ∧
        db.getSchemas config = ⟨[], .ok catalog⟩ ∧ catalog.keys ≠ [] ∧
        ∀ schema ∈ catalog.keys, CompleteSchema db config schema := by
  rw [run_eq_runWith, runWith] at hrun
  cases hoverrides : cli.intoOverrides with
  | error e =>
    rw [hoverrides] at hrun
    cases hrun
  | ok overrides =>
    cases hconfig : (loadConfig overrides).run console with
    | error e =>
      simp only [hoverrides, hconfig] at hrun
      cases hrun
    | ok p =>
      obtain ⟨config, rest⟩ := p
      simp only [hoverrides, hconfig, hstrict] at hrun
      obtain ⟨hcounted, hcomplete⟩ := connectAndExport_strict hfresh hrun
      exact ⟨hcounted, overrides, config, rest, rfl, hconfig, hcomplete⟩

/-- A database with one schema. -/
def oneSchemaClient : DbClient Unit :=
  { slashClient true with getSchemas := fun _ => { result := .ok ⟨["s"], by decide⟩ } }

def strictCli : Cli where
  output := some .sql
  dbType := some .postgres
  endpoint := some "h"
  port := some 5432
  user := some "u"
  database := some "d"
  strict := true

/-- Tasks that go one after the other. -/
def serialSchedulers (db : DbClient ε) (format : OutputFormat) : Scheduler db format :=
  serialScheduler db format fun _ _ _ => false

lemma isOk_strictCli : (run plainMachine (fun _ => { result := .ok oneSchemaClient })
    serialSchedulers strictCli ⟨[], .ok [], []⟩ emptyWorld).map (fun p => p.1.isOk) =
      some true := by
  decide +kernel

theorem run_strict_complete_oneSchema :
    ∃ config catalog, oneSchemaClient.getSchemas config = ⟨[], .ok catalog⟩ ∧
      catalog.keys ≠ [] ∧ ∀ schema ∈ catalog.keys,
        CompleteSchema oneSchemaClient config schema := by
  obtain ⟨⟨r, w'⟩, hrun, hok⟩ := Option.map_eq_some_iff.mp isOk_strictCli
  obtain ⟨⟨⟩, rfl⟩ := exists_eq_ok_of_isOk hok
  obtain ⟨-, -, config, -, -, -, db, catalog, hdb, hcomplete⟩ :=
    run_strict_complete plainMachine (fun _ => { result := .ok oneSchemaClient })
      serialSchedulers strictCli ⟨[], .ok [], []⟩ emptyWorld w' rfl rfl hrun
  obtain rfl : oneSchemaClient = db := Except.ok.inj (congrArg Answer.result hdb)
  exact ⟨config, catalog, hcomplete⟩

end Run

end TdExport
