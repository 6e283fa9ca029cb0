import TdExport.Export.Excel.SheetNames
import TdExport.Run.SqlFiles

/-!
# The workbook after a run

With Excel nothing is written before the sheets of all schemas are filled: a run leaves the complete
workbook, with one sheet for each schema in order, or the files as they were.
-/

namespace TdExport

open Core Excel

variable {ε κ ι : Type}

section Loop

variable {m : Machine κ ι} {db : DbClient ε} {slow : Str → List TableDef → ℕ → Bool}
  {config : RunConfig} {schemas names done : List Str} {schema : Str}

/-- What is asked of the library for the sheet of a schema. -/
def sheetRequests (db : DbClient ε) (config : RunConfig) (schema : Str) : List Request :=
  (writeTablesToSheet (enrichedTables db config schema)).requests

/-- The error for a schema: its tables cannot be listed, or the library refuses a request. -/
def sheetError (m : Machine κ ι) (db : DbClient ε) (config : RunConfig) (schema : Str) :
    Option (RunError ε) :=
  match listed db config schema with
  | .error e => some (.tables schema e)
  | .ok _ => ((sheetRequests db config schema).findSome? m.refuse).map (.write schema)

/-- The sheets when the schemas `done` are written. -/
def sheetsOf (db : DbClient ε) (config : RunConfig) (schemas names done : List Str) :
    List (Str × List Request) :=
  (schemas.zip names).map fun p =>
    (p.2, if done.contains p.1 then sheetRequests db config p.1 else [])

/-- One more sheet is written. -/
lemma sheetsOf_modify (hnodup : schemas.Nodup) (hschema : schema ∉ done) {i : ℕ}
    (hi : schemas[i]? = some schema) :
    ((sheetsOf db config schemas names done).modify i fun sheet =>
      (sheet.1, sheet.2 ++ sheetRequests db config schema)) =
        sheetsOf db config schemas names (schema :: done) := by
  apply List.ext_getElem?
  intro j
  rw [List.getElem?_modify, sheetsOf, sheetsOf, List.getElem?_map, List.getElem?_map]
  cases hj : (schemas.zip names)[j]? with
  | none => rfl
  | some p =>
    obtain ⟨hp, -⟩ := List.getElem?_zip_eq_some.mp hj
    by_cases hij : i = j
    · subst hij
      obtain rfl : schema = p.1 := Option.some_inj.mp (hi.symm.trans hp)
      simp [hschema]
    · have hne : p.1 ≠ schema := by
        rintro rfl
        exact hij (List.getElem?_inj (List.getElem?_eq_some_iff.mp hi).1 hnodup |>.mp
          (hi.trans hp.symm))
      simp [hij, hne]

variable [DecidableEq κ] [DecidableEq ι] {filename : Str} {w : World κ ι}

/-- The exporter of a run with Excel when the schemas `done` are written. -/
abbrev sheetsExporter (ι : Type) (db : DbClient ε) (config : RunConfig)
    (schemas names : List Str) (filename : Str) (done : List Str) : Exporter ι :=
  .excel ⟨sheetsOf db config schemas names done, filename, schemas⟩

variable (m slow w) in
/-- One more schema. The files stay as they are. -/
lemma exists_exportSchema_excel (hformat : config.outputFormat = .excel) (hnodup : schemas.Nodup)
    (hmem : schema ∈ schemas) (hschema : schema ∉ done) :
    ∃ w', exportSchema m db (serialMetadata db config.outputFormat slow) config schema
        (sheetsExporter ι db config schemas names filename done) w =
          some ((sheetError m db config schema).elim
            (.ok (sheetsExporter ι db config schemas names filename (schema :: done))) .error, w') ∧
      w'.disk = w.disk := by
  have hsql : config.outputFormat ≠ .sql := by
    rw [hformat]
    exact OutputFormat.noConfusion
  rw [exportSchema, sheetError]
  cases hlisted : listed db config schema with
  | error e =>
    rw [listed] at hlisted
    rw [hlisted]
    exact ⟨_, rfl, rfl⟩
  | ok tables =>
    have hrequests : (writeTablesToSheet
        (serialMetadata db config.outputFormat slow schema tables).1).requests =
          sheetRequests db config schema := by
      have hresults : (serialMetadata db config.outputFormat slow schema tables).1 =
          tables.map (enriched db schema config.outputFormat) := results_tasksOf
      rw [hresults, sheetRequests, enrichedTables, hlisted]
    obtain ⟨i, hi⟩ : ∃ i, schemas.findIdx? (· = schema) = some i := by
      rw [← Option.isSome_iff_exists, List.findIdx?_isSome]
      exact List.any_eq_true.mpr ⟨schema, hmem, by simp⟩
    have hget : schemas[i]? = some schema := by
      obtain ⟨hlt, heq, -⟩ := List.findIdx?_eq_some_iff_getElem.mp hi
      rw [List.getElem?_eq_getElem hlt, of_decide_eq_true heq]
    rw [listed] at hlisted
    simp only [hlisted, fetchPreamble, if_neg hsql, Exporter.writeTables, ExcelExporter.writeTables,
      hi, hrequests]
    cases (sheetRequests db config schema).findSome? m.refuse with
    | some message => exact ⟨_, rfl, rfl⟩
    | none =>
      rw [sheetsOf_modify hnodup hschema hget]
      exact ⟨_, rfl, rfl⟩

variable (m slow filename w) in
/-- The sheets are filled up to the first that has an error. -/
lemma exists_exportSchemas_excel (hformat : config.outputFormat = .excel) (hnodup : schemas.Nodup)
    {rest : List Str} (hrest : ∀ schema ∈ rest, schema ∈ schemas)
    (hdone : (rest ++ done).Nodup) :
    ∃ w', exportSchemas m db (serialMetadata db config.outputFormat slow) config rest
        (sheetsExporter ι db config schemas names filename done) w =
          some ((rest.findSome? (sheetError m db config)).elim
            (.ok (sheetsExporter ι db config schemas names filename (rest.reverse ++ done)))
            .error, w') ∧
      w'.disk = w.disk := by
  induction rest generalizing done w with
  | nil => exact ⟨w, rfl, rfl⟩
  | cons schema rest ih =>
    have hschema : schema ∉ done := fun hmem =>
      (List.nodup_cons.mp hdone).1 (List.mem_append_right _ hmem)
    obtain ⟨w₁, hstep, hdisk₁⟩ := exists_exportSchema_excel m slow w hformat hnodup
      (hrest schema List.mem_cons_self) hschema
    rw [exportSchemas, hstep, List.findSome?_cons]
    cases sheetError m db config schema with
    | some e => exact ⟨w₁, rfl, hdisk₁⟩
    | none =>
      obtain ⟨w', hrun, hdisk⟩ := @ih (schema :: done) w₁
        (fun s hs => hrest s (List.mem_cons_of_mem _ hs)) (List.perm_middle.nodup_iff.mpr hdone)
      refine ⟨w', ?_, hdisk.trans hdisk₁⟩
      rw [List.reverse_cons, List.append_assoc]
      exact hrun

end Loop

/-! ### The whole run -/

section Run

variable [DecidableEq κ] [DecidableEq ι]

/-- The sheets of a complete workbook. -/
def workbookOf (db : DbClient ε) (config : RunConfig) (schemas names : List Str) :
    List (Str × List Request) :=
  (schemas.zip names).map fun p => (p.2, sheetRequests db config p.1)

/-- Saving the workbook changes one file. -/
lemma read_finish_excel (m : Machine κ ι) {w : World κ ι} (hdisk : w.disk.dir.NoLinks)
    (self : ExcelExporter) (k : κ) :
    ((Exporter.excel (ι := ι) self).finish m w).2.disk.read k =
      if k = m.fs.fold self.filename then some (m.saveWorkbook self.workbook)
      else w.disk.read k :=
  FileSystem.read_create_write hdisk _ _ k

/-- A run with Excel writes the workbook with one sheet for each schema, in their order and with
names that a workbook accepts, and no other file; or, when the tables of a schema cannot be listed
or the library refuses a cell, nothing at all. -/
theorem exportCatalog_workbook (m : Machine κ ι) (db : DbClient ε) (config : RunConfig)
    (strict : Bool) (catalog : SchemaCatalog) (w : World κ ι)
    (scheduler : Scheduler db config.outputFormat) (hformat : config.outputFormat = .excel)
    (hne : catalog.keys ≠ []) (hfuel : 1 ≤ m.fuel) (hlimit : catalog.keys.length ≤ m.overflow.limit)
    (hdisk : w.disk.dir.NoLinks) :
    ∃ names r w', SheetNames m.tables.toCaseTables m.overflow
        (catalog.keys.insertionSort (· ≤ ·)) names ∧
      exportCatalog m db scheduler.metadata config strict catalog w = some (r, w') ∧
      ((catalog.keys.insertionSort (· ≤ ·)).findSome? (sheetError m db config) = none ∧
          (r = .ok () ↔ strict = false ∨ w'.warn.warnings = 0) ∧
          (∀ k, w'.disk.read k =
            if k = m.fs.fold (workbookFilename m.hash (sourceLabel config)) then
              some (m.saveWorkbook (workbookOf db config
                (catalog.keys.insertionSort (· ≤ ·)) names))
            else w.disk.read k) ∨
        ∃ e, (catalog.keys.insertionSort (· ≤ ·)).findSome? (sheetError m db config) = some e ∧
          r = .error e ∧ w'.disk = w.disk) := by
  have hperm : (catalog.keys.insertionSort (· ≤ ·)).Perm catalog.keys :=
    List.perm_insertionSort _ _
  have hroom : (∅ : Finset Str).card + (catalog.keys.insertionSort (· ≤ ·)).length ≤
      m.overflow.limit := by
    rwa [Finset.card_empty, Nat.zero_add, hperm.length_eq]
  obtain ⟨names, hassigned⟩ := exists_assignSheetNames m.tables.toCaseTables hroom
  have hnames : sheetNames m.tables.toCaseTables m.overflow (· + m.fuel)
      (catalog.keys.insertionSort (· ≤ ·)) = some names :=
    hassigned _ fun n => Nat.add_le_add_left hfuel n
  have hsheets := sheetNames_eq_some hnames
  generalize hschemas : catalog.keys.insertionSort (· ≤ ·) = schemas at hperm hnames hsheets
  have hnodup : schemas.Nodup := hperm.nodup_iff.mpr catalog.nodup
  -- the sheets are empty at first
  have hempty : (names.map fun name => (name, ([] : List Request))) =
      sheetsOf db config schemas names [] := by
    have hsnd : (schemas.zip names).map Prod.snd = names := List.map_snd_zip hsheets.length.le
    conv_lhs => rw [← hsnd]
    simp only [sheetsOf, List.contains_nil, Bool.false_eq_true, if_false, List.map_map,
      Function.comp_def]
  have hsetup : (createExporter config.outputFormat : Exporter ι).setup m catalog config w =
      some (sheetsExporter ι db config schemas names
        (workbookFilename m.hash (sourceLabel config)) [],
        w.warned (sheetWarnings (ε := Empty) schemas names)) := by
    rw [hformat]
    simp only [createExporter, Exporter.setup, ExcelExporter.setup, hschemas, hnames,
      Option.bind_eq_bind, Option.bind_some, Option.pure_def, Option.map_some, List.nil_append,
      hempty]
    rfl
  obtain ⟨w₂, hrun, hdisk₂⟩ := exists_exportSchemas_excel m scheduler.slow
    (workbookFilename m.hash (sourceLabel config))
    (w.warned (sheetWarnings (ε := Empty) schemas names)) hformat hnodup (fun s hs => hs)
    (by rw [List.append_nil]; exact hnodup)
  rw [← exportSchemas_congr scheduler.agree] at hrun
  refine ⟨names, ?_⟩
  rw [exportCatalog, if_neg hne, hschemas]
  rw [hsetup, Option.bind_eq_bind, Option.bind_some]
  dsimp only
  rw [hrun, Option.bind_eq_bind, Option.bind_some]
  cases schemas.findSome? (sheetError m db config) with
  | some e => exact ⟨_, w₂, hsheets, rfl, .inr ⟨e, rfl, rfl, hdisk₂⟩⟩
  | none =>
    simp only [Option.elim_none, Option.pure_def]
    generalize hfinish : (Exporter.finish m w₂ (sheetsExporter ι db config schemas names
      (workbookFilename m.hash (sourceLabel config)) (schemas.reverse ++ []))).2 = w₃
    cases hconclude : conclude (ε := ε) strict w₃ with
    | mk r w' =>
    obtain ⟨hdisk₃, -, hr⟩ := conclude_spec strict hconclude
    refine ⟨r, w', hsheets, rfl, .inl ⟨trivial, hr, fun k => ?_⟩⟩
    have hlinks : w₂.disk.dir.NoLinks := hdisk₂ ▸ hdisk
    have hbook : sheetsOf db config schemas names (schemas.reverse ++ []) =
        workbookOf db config schemas names := by
      apply List.map_congr_left
      intro p hp
      have hmem := List.mem_reverse.mpr (List.of_mem_zip hp).1
      rw [List.append_nil, if_pos (List.contains_iff_mem.mpr hmem)]
    rw [hdisk₃, ← hbook, ← hfinish, read_finish_excel m hlinks, hdisk₂, World.disk_warned]

def excelConfig : RunConfig := { slashConfig with outputFormat := .excel }

theorem exportCatalog_workbook_slash :
    ∃ (scheduler : Scheduler (slashClient true) excelConfig.outputFormat)
      (names : List Str) (r : Except (RunError Unit) Unit) (w' : World Str ℕ),
      SheetNames plainMachine.tables.toCaseTables plainMachine.overflow
        (slashCatalog.keys.insertionSort (· ≤ ·)) names ∧
      exportCatalog plainMachine (slashClient true) scheduler.metadata excelConfig true slashCatalog
        emptyWorld = some (r, w') ∧
      ((slashCatalog.keys.insertionSort (· ≤ ·)).findSome?
            (sheetError plainMachine (slashClient true) excelConfig) = none ∧
          (r = .ok () ↔ true = false ∨ w'.warn.warnings = 0) ∧
          (∀ k, w'.disk.read k =
            if k = plainMachine.fs.fold
                (workbookFilename plainMachine.hash (sourceLabel excelConfig)) then
              some (plainMachine.saveWorkbook (workbookOf (slashClient true) excelConfig
                (slashCatalog.keys.insertionSort (· ≤ ·)) names))
            else emptyWorld.disk.read k) ∨
        ∃ e, (slashCatalog.keys.insertionSort (· ≤ ·)).findSome?
            (sheetError plainMachine (slashClient true) excelConfig) = some e ∧
          r = .error e ∧ w'.disk = emptyWorld.disk) :=
  ⟨serialScheduler _ _ fun _ _ _ => false, exportCatalog_workbook plainMachine (slashClient true)
    excelConfig true slashCatalog emptyWorld _ rfl (by decide) (by decide) (by decide)
    noLinks_emptyWorld⟩

end Run

end TdExport
