import TdExport.Config.Basic
import TdExport.Export.Exporters
import TdExport.Run.Enrich

/-!
# A run of the program

`run` of `run.rs`: the settings, the connection, and the export of the schemas one after the other.
The metadata of the tables of a schema is fetched concurrently; what the scheduler makes of it is a
parameter.
-/

namespace TdExport

open Core

/-- The command line. -/
structure Cli where
  output : Option OutputFormat := none
  dbType : Option DbType := none
  endpoint : Option Str := none
  port : Option UInt16 := none
  user : Option Str := none
  database : Option Str := none
  targetDb : Option (List Str) := none
  exceptTables : Option (List Str) := none
  sslMode : Option SslMode := none
  sslCa : Option Str := none
  strict : Bool := false
  skipDefiner : Bool := false
  deriving DecidableEq, Repr

def Cli.intoOverrides (self : Cli) : Except AppError CliOverrides := do
  let tls ← TlsOptions.new self.sslMode self.sslCa
  return {
    outputFormat := self.output
    dbType := self.dbType
    endpoint := self.endpoint
    port := self.port
    user := self.user
    database := self.database
    targetDb := self.targetDb
    exceptTables := self.exceptTables
    tls
    skipDefiner := self.skipDefiner }

/-- How a run fails. -/
inductive RunError (ε : Type) where
  | overrides (e : AppError)
  | settings (e : AppError)
  | connection (e : ε)
  | schemas (e : ε)
  | notInSchema
  | tables (schema : Str) (e : ε)
  | write (schema message : Str)
  | strict (warnings : ℕ)
  deriving DecidableEq, Repr

variable {ε κ ι : Type}

/-! ### Fetching metadata -/

/-- The tables of a schema with their metadata, and the actions of all tasks in the order in which
they were done. -/
abbrev Metadata (ε : Type) := Str → List TableDef → List TableDef × List (Action ε)

section Tasks

variable (db : DbClient ε) (format : OutputFormat) (schema : Str)

/-- The tasks of the tables of a schema; `slow` tells which of them take a second or more. -/
def tasksOf (slow : ℕ → Bool) (tables : List TableDef) : List (Task ε TableDef) :=
  tables.mapIdx fun i table => enrichTable db schema format table (slow i)

/-- What becomes of the tasks of each schema, which run concurrently to their end: which of them are
slow, and the order of the actions of all of them. -/
structure Scheduler where
  slow : Str → List TableDef → ℕ → Bool
  trace : Str → List TableDef → List (Action ε)
  trace_perm : ∀ schema tables, (trace schema tables).Perm
    ((tasksOf db format schema (slow schema tables) tables).flatMap Task.actions)

end Tasks

/-- `buffer_metadata`, with the results in the order of the tables. -/
def Scheduler.metadata {db : DbClient ε} {format : OutputFormat}
    (scheduler : Scheduler db format) : Metadata ε := fun schema tables =>
  ((tasksOf db format schema (scheduler.slow schema tables) tables).map Task.result,
    scheduler.trace schema tables)

/-! ### Exporting schemas -/

section Export

variable [DecidableEq κ] [DecidableEq ι] (m : Machine κ ι) (db : DbClient ε)
  (metadata : Metadata ε) (config : RunConfig)

/-- With SQL the objects of the schema are put before its tables, if they can be fetched. -/
def fetchPreamble (schema : Str) (exporter : Exporter ι) (w : World κ ι) :
    Exporter ι × World κ ι :=
  if config.outputFormat = .sql then
    let objects := db.getSchemaDdl schema
    let w := w.warned objects.warnings
    match objects.result with
    | .ok ddl => (exporter.setSchemaPreamble schema ddl, w)
    | .error e => (exporter, w.warned [.schemaDdl schema e])
  else (exporter, w)

/-- One turn of the loop over the schemas. -/
def exportSchema (schema : Str) (exporter : Exporter ι) (w : World κ ι) :
    Option (Except (RunError ε) (Exporter ι) × World κ ι) :=
  let listed := db.getTables schema (config.exceptTables.getD [])
  let w := w.warned listed.warnings
  match listed.result with
  | .error e => some (.error (.tables schema e), w)
  | .ok tables =>
    let enriched := metadata schema tables
    let w := w.warned (warningsOf enriched.2)
    let (exporter, w) := fetchPreamble db config schema exporter w
    (exporter.writeTables m schema enriched.1 w).map fun
      | .ok (exporter, w) => (.ok exporter, w)
      | .error message => (.error (.write schema message), w)

/-- The loop over the schemas. An error ends it. -/
def exportSchemas : List Str → Exporter ι → World κ ι →
    Option (Except (RunError ε) (Exporter ι) × World κ ι)
  | [], exporter, w => some (.ok exporter, w)
  | schema :: schemas, exporter, w => do
    match ← exportSchema m db metadata config schema exporter w with
    | (.error e, w) => return (.error e, w)
    | (.ok exporter, w) => exportSchemas schemas exporter w

/-- The end of a run. The event that tells the number of warnings is not counted. -/
def conclude (strict : Bool) (w : World κ ι) : Except (RunError ε) Unit × World κ ι :=
  let warnings := w.warn.warnings
  let w := if warnings = 0 then w else w.warned [Warning.complete (ε := ε) warnings]
  if strict ∧ 0 < warnings then (.error (.strict warnings), w) else (.ok (), w)

/-- A run from the list of schemas on. -/
def exportCatalog (strict : Bool) (catalog : SchemaCatalog) (w : World κ ι) :
    Option (Except (RunError ε) Unit × World κ ι) :=
  if catalog.keys = [] then some (.error .notInSchema, w)
  else do
    let (exporter, w) ← (createExporter config.outputFormat).setup m catalog config w
    match ← exportSchemas m db metadata config (catalog.keys.insertionSort (· ≤ ·)) exporter w with
    | (.error e, w) => return (.error e, w)
    | (.ok exporter, w) => return conclude strict (exporter.finish m w).2

/-- A run from the connection on. -/
def exportDatabase (strict : Bool) (w : World κ ι) :
    Option (Except (RunError ε) Unit × World κ ι) :=
  let listed := db.getSchemas config
  let w := w.warned listed.warnings
  match listed.result with
  | .error e => some (.error (.schemas e), w)
  | .ok catalog => exportCatalog m db metadata config strict catalog w

end Export

section Run

variable [DecidableEq κ] [DecidableEq ι] (m : Machine κ ι)
  (connect : RunConfig → Answer ε (DbClient ε))

/-- A run with its settings, given how the metadata is fetched. -/
def connectAndExport (metadata : DbClient ε → OutputFormat → Metadata ε) (strict : Bool)
    (config : RunConfig) (w : World κ ι) : Option (Except (RunError ε) Unit × World κ ι) :=
  let connected := connect config
  let w := w.warned connected.warnings
  match connected.result with
  | .error e => some (.error (.connection e), w)
  | .ok db => exportDatabase m db (metadata db config.outputFormat) config strict w

/-- The whole run, given how the metadata is fetched. `none` stands for a loop that does not end
within the fuel. -/
def runWith (metadata : DbClient ε → OutputFormat → Metadata ε) (cli : Cli) (console : Console)
    (w : World κ ι) : Option (Except (RunError ε) Unit × World κ ι) :=
  match cli.intoOverrides with
  | .error e => some (.error (.overrides e), w)
  | .ok overrides =>
    match (loadConfig overrides).run console with
    | .error e => some (.error (.settings e), w)
    | .ok (config, _) => connectAndExport m connect metadata cli.strict config w

/-- The run of the program, under schedulers for the tasks. -/
def run (schedulers : ∀ db format, Scheduler (ε := ε) db format) :
    Cli → Console → World κ ι → Option (Except (RunError ε) Unit × World κ ι) :=
  runWith m connect fun db format => (schedulers db format).metadata

end Run

end TdExport
