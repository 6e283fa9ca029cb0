import TdExport.Db.Postgres.Fetch.SchemaDdl
import TdExport.Db.Postgres.Fetch.TableDdl
import TdExport.Db.Postgres.Parse.Basic

/-!
# The PostgreSQL client

`PgClient` of `db/postgres/mod.rs`: what the client makes of the answers of the server, for the
documents and for the SQL files.
-/

namespace TdExport.Postgres

open Core

/-! ### Rows -/

structure TableListRow where
  tableName : Cell Str
  tableType : Cell Str
  tableComment : Cell (Option Str)

/-- A column for the documents. -/
structure ColumnInfoRow where
  columnName : Cell Str
  columnDefault : Cell (Option Str)
  isNullable : Cell Str
  dataType : Cell Str
  collationName : Cell (Option Str)
  attidentity : Cell Str
  attgenerated : Cell Str
  generationExpression : Cell (Option Str)
  columnComment : Cell (Option Str)

structure KeyColumnRow where
  columnName : Cell Str
  indisprimary : Cell Bool
  indisunique : Cell Bool
  keyCount : Cell ℤ
  position : Cell ℤ

/-- An index that is not that of a primary key; `exclusionDef` is the text of its exclusion
constraint. -/
structure IndexInfoRow where
  indexname : Cell Str
  indexdef : Cell Str
  exclusionDef : Cell (Option Str)

/-- What the server answers to all queries. The tables are queried with the patterns of those to be
left out, and a view that is not there is an error. -/
structure PgServer (σ : Type) extends PgRelations σ, PgSchemaObjects σ where
  schemata : Except σ (List Str)
  tables : Str → List Str → Except σ (List TableListRow)
  columnInfos : Str → Str → Except σ (List ColumnInfoRow)
  keyColumns : Str → Str → Except σ (List KeyColumnRow)
  indexInfos : Str → Str → Except σ (List IndexInfoRow)
  viewDef : Str → Str → Except σ (Cell Str)

/-! ### Schemas -/

def isPgSystemSchema (name : Str) : Bool :=
  ["pg_catalog".toList, "information_schema".toList, "pg_toast".toList].contains name ||
    "pg_temp_".toList.isPrefixOf name || "pg_toast_temp_".toList.isPrefixOf name

def filterPgSchemas (allSchemas : List Str) (targetDb : Option (List Str)) : List Str :=
  (allSchemas.filter fun name => !isPgSystemSchema name).filter fun name =>
    targetDb.all fun targets => targets.contains name

/-! ### Columns -/

/-- What the documents say of an identity, serial or generated column. -/
def determinePgExtra (attidentity attgenerated : Str) (columnDefault : Option Str) : Option Str :=
  if attidentity = "a".toList ∨ attidentity = "d".toList then some "auto_increment"
  else if columnDefault.any fun default => containsStr "nextval(".toList default then
    some "auto_increment"
  else if attgenerated = "s".toList then some "STORED GENERATED"
  else if attgenerated = "v".toList then some "VIRTUAL GENERATED"
  else none

/-- A generated column is shown with its expression. -/
def withExpression (generationExpression : Option Str) (extra : Str) : Str :=
  match generationExpression with
  | some expr => if "GENERATED".toList.isSuffixOf extra then extra ++ " " ++ expr else extra
  | none => extra

section Client

variable {σ : Type} (server : PgServer σ) (dbCollation : Str) (schema table : Str)

def readKeyRow (row : KeyColumnRow) : Answer (PgError σ) KeyRow := do
  let columnName ← tryGetOrWarn row.columnName "column_name" schema table
  let isPrimary ← tryGetOrWarn row.indisprimary "indisprimary" schema table
  let isUnique ← tryGetOrWarn row.indisunique "indisunique" schema table
  let keyCount ← tryGetOrWarn row.keyCount "key_count" schema table
  let position ← tryGetOrWarn row.position "position" schema table
  return { columnName, isPrimary, isUnique, keyCount, position }

def readColumnInfo (keys : ColumnKeys) (row : ColumnInfoRow) : Answer (PgError σ) ColumnInfo := do
  let columnName ← tryGetOrWarn row.columnName "column_name" schema table
  let columnDefault ← tryGetOrWarn row.columnDefault "column_default" schema table
  let isNullable ← tryGetOrWarn row.isNullable "is_nullable" schema table
  let columnType ← tryGetOrWarn row.dataType "data_type" schema table
  let collation ← tryGetOrWarn row.collationName "collation_name" schema table
  let attidentity ← tryGetOrWarn row.attidentity "attidentity" schema table
  let attgenerated ← tryGetOrWarn row.attgenerated "attgenerated" schema table
  let generationExpression ←
    tryGetOrWarn row.generationExpression "generation_expression" schema table
  let comment ← tryGetOrWarn row.columnComment "column_comment" schema table
  return {
    columnName, columnType, collation, comment
    defaultValue := columnDefault
    nullable := isNullable
    charset := none
    columnKey := keys columnName
    extra := (determinePgExtra attidentity attgenerated columnDefault).map
      (withExpression generationExpression) }

/-! ### The queries -/

/-- The schemas are the keys of a map, each of them once. -/
def getSchemas (config : RunConfig) : Answer (PgError σ) SchemaCatalog := do
  let names ← query "information_schema" "schemata" server.schemata
  return ⟨(filterPgSchemas names config.targetDb).dedup, List.nodup_dedup _⟩

def getTables (except : List Str) : Answer (PgError σ) (List TableDef) := do
  let rows ← query schema "tables" (server.tables schema except)
  rows.mapM fun row => do
    let tableName ← tryGetOrWarn row.tableName "table_name" schema "tables"
    let tableType ← tryGetOrWarn row.tableType "table_type" schema "tables"
    let comment ← tryGetOrWarn row.tableComment "table_comment" schema "tables"
    return { tableName, general := { tableType, collate := some dbCollation, comment } }

def getColumns : Answer (PgError σ) (List ColumnInfo) := do
  let rows ← query schema table (server.columnInfos schema table)
  let keyRows ← query schema table (server.keyColumns schema table)
  let keyRows ← keyRows.mapM (readKeyRow schema table)
  rows.mapM (readColumnInfo schema table (columnKeys keyRows))

/-- The text of an exclusion constraint is read in place of that of its index. -/
def getIndexes : Answer (PgError σ) (List IndexInfo) := do
  let rows ← query schema table (server.indexInfos schema table)
  rows.mapM fun row => do
    let indexName ← tryGetOrWarn row.indexname "indexname" schema table
    let indexdef ← tryGetOrWarn row.indexdef "indexdef" schema table
    let exclusionDef ← tryGetOrWarn row.exclusionDef "exclusion_def" schema table
    let parsed := parsePgIndexdef (exclusionDef.getD indexdef)
    return {
      indexName
      nonUnique := if parsed.isUnique then 0 else 1
      indexColumns := parsed.columns
      predicate := parsed.predicate
      indexType := if exclusionDef.isSome then some "EXCLUDE".toList else parsed.method
      includeColumns := parsed.included }

/-- A foreign key as the documents show it; `none` for other constraints. -/
def PgDdlConstraint.constInfo (c : PgDdlConstraint) : Option ConstInfo :=
  match c.constraintType with
  | .foreignKey fk => some {
      constraintName := c.name
      constraintColumn := (", ".toList).intercalate c.columns
      reference := fkReference schema fk.refSchema fk.refTable fk.refColumns
      deleteAction := fk.onDelete
      updateAction := fk.onUpdate }
  | _ => none

/-- The foreign keys, out of the same constraints as those of the statements. -/
def getConstraints : Answer (PgError σ) (List ConstInfo) := do
  let constraints ← fetchConstraints server.toPgRelations schema table
  return constraints.filterMap (PgDdlConstraint.constInfo schema)

def getViewInfo : Answer (PgError σ) ViewInfo := do
  let row ← query schema table (server.viewDef schema table)
  let viewQuery ← tryGetOrWarn row "view_def" schema table
  return { viewQuery, charset := [], collate := [] }

end Client

/-- The client of a server whose database has a collation. -/
def pgClient {σ : Type} (server : PgServer σ) (dbCollation : Str) : DbClient (PgError σ) where
  getSchemas := getSchemas server
  getTables := getTables server dbCollation
  getColumns := getColumns server
  getIndexes := getIndexes server
  getConstraints := getConstraints server
  getViewInfo := getViewInfo server
  getTableDdl := fetchTableDdl server.toPgRelations
  getSchemaDdl := fetchSchemaDdl server.toPgSchemaObjects

end TdExport.Postgres
