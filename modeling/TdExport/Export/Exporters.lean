import TdExport.Db.Client
import TdExport.Export.Excel.Basic
import TdExport.Export.Excel.Sheet
import TdExport.Export.Filename.Source
import TdExport.Export.Markdown.Basic
import TdExport.Export.SchemaFiles.OnDisk
import TdExport.Export.Sql.Comments

/-!
# The exporters

The trait `Exporter` of `export/mod.rs` and its three implementations. An exporter goes through
`setup`, `write_tables` for each schema, and `finish`; opening, writing and removing files succeed,
and so do naming the sheets and saving the workbook.
-/

namespace TdExport

open Core

/-- What the program runs on. `fuel` bounds the turns of its loops. Of the library for workbooks,
`refuse` is the error for a request and `saveWorkbook` the file of a workbook. -/
structure Machine (κ ι : Type) where
  platform : Platform
  fs : FileSystem κ ι
  tables : FileTables
  hash : Str → UInt64
  overflow : Overflow
  refuse : Excel.Request → Option Str
  saveWorkbook : List (Str × List Excel.Request) → Str
  fuel : ℕ

/-- What the program changes. -/
structure World (κ ι : Type) where
  disk : Disk κ ι
  warn : WarnState := {}

variable {ε κ ι : Type}

def World.warned (w : World κ ι) (ws : List (Warning ε)) : World κ ι :=
  { w with warn := w.warn.recordAll ws }

/-! ### SQL -/

namespace Sql

/-- The warning of `write_sql` about the name of the schema. -/
def schemaWarnings (schema : Str) : DbType → List (Warning ε)
  | .postgres =>
    match quotePgIdentifier schema with
    | .ok _ => []
    | .error e => [.unsafeSchema schema e]
  | .mySql => []

/-- The warning of `write_relation`. -/
def relationWarnings (schema : Str) (dbType : DbType) (t : TableDef) : List (Warning ε) :=
  match quoteTableName dbType t.tableName with
  | .ok _ => []
  | .error e => [.unsafeTable schema t.tableName e]

/-- The warnings of `write_sql`, in order. -/
def writeSqlWarnings (u : Unicode) (schema : Str) (tables : List TableDef) (dbType : DbType) :
    Option (List (Warning ε)) := do
  let views ← orderViews u schema (tables.filter fun t => t.general.isView) dbType
  return schemaWarnings schema dbType ++
    (tables.filter fun t => !t.general.isView).flatMap (relationWarnings schema dbType) ++
    views.flatMap (relationWarnings schema dbType)

structure SqlExporter (ι : Type) where
  files : SortedMap Str (Str × Handle ι) := ∅
  dbType : DbType := .mySql
  preambles : SortedMap Str SchemaDdl := ∅

section

variable [DecidableEq κ] [DecidableEq ι] (m : Machine κ ι)

/-- The statements that refer to other schemas go to a file of their own. Without any, the file of
an earlier run is removed. -/
def writeCrossSchemaFile (disk : Disk κ ι) (path schema : Str) (statements : List Str) :
    Disk κ ι :=
  if statements = [] then m.fs.remove disk path
  else
    let file := m.fs.create disk path
    (file.2.write file.1 (writeCrossSchemaSql schema statements)).2

namespace SqlExporter

variable (self : SqlExporter ι)

def setup (catalog : SchemaCatalog) (config : RunConfig) (w : World κ ι) :
    Option (SqlExporter ι × World κ ι) := do
  let opened ← createSchemaFilesOn (ε := Empty) m.platform m.fs m.tables.toCaseTables m.overflow
    m.hash (sourceLabel config) "sql" m.fuel w.disk catalog.keys
  return ({ self with dbType := config.dbType, files := opened.files },
    { w with disk := opened.disk }.warned opened.warnings)

def writeTables (schema : Str) (tables : List TableDef) (w : World κ ι) :
    Option (SqlExporter ι × World κ ι) :=
  let preamble := (self.preambles.lookup schema).getD {}
  let self := { self with preambles := self.preambles.erase schema }
  match self.files.lookup schema with
  | none => some (self, w)
  | some (name, file) => do
    let text ← writeSql m.tables.toUnicode schema preamble tables self.dbType
    let warnings ← writeSqlWarnings (ε := Empty) m.tables.toUnicode schema tables self.dbType
    let written := w.disk.write file text
    let disk := writeCrossSchemaFile m written.2 (crossSchemaFilename m.hash name) schema
      (tables.flatMap TableDef.ddlCrossSchema)
    return ({ self with files := self.files.insert schema (name, written.1) },
      { w with disk }.warned warnings)

def setSchemaPreamble (schema : Str) (ddl : SchemaDdl) : SqlExporter ι :=
  { self with preambles := self.preambles.insert schema ddl }

def finish : SqlExporter ι := { self with files := ∅ }

end SqlExporter

end

end Sql

/-! ### Markdown -/

namespace Markdown

structure MarkdownExporter (ι : Type) where
  files : SortedMap Str (Str × Handle ι) := ∅

namespace MarkdownExporter

section

variable [DecidableEq κ] [DecidableEq ι] (m : Machine κ ι)

def setup (self : MarkdownExporter ι) (catalog : SchemaCatalog) (config : RunConfig)
    (w : World κ ι) : Option (MarkdownExporter ι × World κ ι) := do
  let opened ← createSchemaFilesOn (ε := Empty) m.platform m.fs m.tables.toCaseTables m.overflow
    m.hash (sourceLabel config) "md" m.fuel w.disk catalog.keys
  return ({ self with files := opened.files },
    { w with disk := opened.disk }.warned opened.warnings)

def writeTables (self : MarkdownExporter ι) (schema : Str) (tables : List TableDef)
    (w : World κ ι) : MarkdownExporter ι × World κ ι :=
  match self.files.lookup schema with
  | none => (self, w)
  | some (name, file) =>
    let written := w.disk.write file (writeMarkdown m.tables.toUnicode schema tables)
    ({ self with files := self.files.insert schema (name, written.1) },
      { w with disk := written.2 })

end

def finish (self : MarkdownExporter ι) : MarkdownExporter ι := { self with files := ∅ }

end MarkdownExporter

end Markdown

/-! ### Excel -/

namespace Excel

/-- `workbook` holds the sheets, each with its name and the requests made of it. -/
structure ExcelExporter where
  workbook : List (Str × List Request) := []
  filename : Str := []
  schemas : List Str := []

/-- The warnings of `sheet_names`. -/
def sheetWarnings (schemas names : List Str) : List (Warning ε) :=
  (schemas.zip names).filterMap fun p =>
    if p.2 = p.1 then none else some (.sheetRenamed p.1 p.2)

namespace ExcelExporter

section

variable [DecidableEq κ] [DecidableEq ι] (m : Machine κ ι) (self : ExcelExporter)

def setup (catalog : SchemaCatalog) (config : RunConfig) (w : World κ ι) :
    Option (ExcelExporter × World κ ι) := do
  let schemas := catalog.keys.insertionSort (· ≤ ·)
  let names ← sheetNames m.tables.toCaseTables m.overflow (· + m.fuel) schemas
  return ({ self with
      filename := workbookFilename m.hash (sourceLabel config)
      schemas
      workbook := self.workbook ++ names.map fun name => (name, []) },
    w.warned (sheetWarnings (ε := Empty) schemas names))

/-- The error is the text of `AppError::ExcelWrite`. The first request that the library refuses ends
the writing. -/
def writeTables (schema : Str) (tables : List TableDef) : Except Str ExcelExporter :=
  match self.schemas.findIdx? (· = schema) with
  | none => .error ("시트를 찾을 수 없음: " ++ schema)
  | some sheetIndex =>
    let requests := (writeTablesToSheet tables).requests
    match requests.findSome? m.refuse with
    | some message => .error message
    | none => .ok { self with workbook := self.workbook.modify sheetIndex fun sheet =>
        (sheet.1, sheet.2 ++ requests) }

/-- The workbook is saved. -/
def finish (w : World κ ι) : World κ ι :=
  let file := m.fs.create w.disk self.filename
  { w with disk := (file.2.write file.1 (m.saveWorkbook self.workbook)).2 }

end

end ExcelExporter

end Excel

/-! ### Every format -/

inductive Exporter (ι : Type) where
  | excel (self : Excel.ExcelExporter)
  | markdown (self : Markdown.MarkdownExporter ι)
  | sql (self : Sql.SqlExporter ι)

def createExporter : OutputFormat → Exporter ι
  | .excel => .excel {}
  | .markdown => .markdown {}
  | .sql => .sql {}

namespace Exporter

variable [DecidableEq κ] [DecidableEq ι] (m : Machine κ ι)

def setup (catalog : SchemaCatalog) (config : RunConfig) (w : World κ ι) :
    Exporter ι → Option (Exporter ι × World κ ι)
  | .excel self => (self.setup m catalog config w).map (Prod.map .excel id)
  | .markdown self => (self.setup m catalog config w).map (Prod.map .markdown id)
  | .sql self => (self.setup m catalog config w).map (Prod.map .sql id)

/-- The error leaves everything as it was. -/
def writeTables (schema : Str) (tables : List TableDef) (w : World κ ι) :
    Exporter ι → Option (Except Str (Exporter ι × World κ ι))
  | .excel self => some ((self.writeTables m schema tables).map fun self => (.excel self, w))
  | .markdown self => some (.ok ((self.writeTables m schema tables w).map .markdown id))
  | .sql self => (self.writeTables m schema tables w).map fun p => .ok (p.map .sql id)

/-- Only the SQL format uses the objects of a schema. -/
def setSchemaPreamble (schema : Str) (ddl : SchemaDdl) : Exporter ι → Exporter ι
  | .sql self => .sql (self.setSchemaPreamble schema ddl)
  | self => self

def finish (w : World κ ι) : Exporter ι → Exporter ι × World κ ι
  | .excel self => (.excel self, self.finish m w)
  | .markdown self => (.markdown self.finish, w)
  | .sql self => (.sql self.finish, w)

end Exporter

end TdExport
