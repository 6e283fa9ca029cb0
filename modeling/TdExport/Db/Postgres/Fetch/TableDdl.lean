import TdExport.Db.Postgres.Fetch.Objects
import TdExport.Db.Postgres.Partition.Basic

/-!
# The statements of a PostgreSQL relation

`fetch_table_ddl` of `db/postgres/ddl.rs`, with the partitions of `db/postgres/partition.rs`.
-/

namespace TdExport.Postgres

open Core

variable {σ : Type} (server : PgRelations σ) (schema table : Str)

/-! ### Partitions -/

/-- The statements for the partitions of a table. -/
structure PartitionDdl where
  create : List Str := []
  indexes : List Str := []
  after : List Str := []
  crossSchema : List Str := []
  deriving DecidableEq, Repr

/-- `CREATE [FOREIGN] TABLE child PARTITION OF parent bound[ PARTITION BY key][ SERVER ..];` -/
def buildPartitionDdl (child parent : Str × Str) (bound : Str) (partitionKey foreign : Option Str) :
    Except Failure Str := do
  let keyword : Str := if foreign.isSome then "CREATE FOREIGN TABLE" else "CREATE TABLE"
  let subPartition : Str := (partitionKey.map (" PARTITION BY ".toList ++ ·)).getD []
  let foreignClause : Str := (foreign.map (" ".toList ++ ·)).getD []
  let quotedChild ← quotedRelation child.1 child.2
  let quotedParent ← quotedRelation parent.1 parent.2
  return keyword ++ " " ++ quotedChild ++ " PARTITION OF " ++ quotedParent ++ " " ++ bound ++
    subPartition ++ foreignClause ++ ";"

/-- `ALTER TABLE .. ADD CONSTRAINT ..;` with the text of the catalog. -/
def ownConstraintStatement (target name definition : Str) : Except Failure Str := do
  return "ALTER TABLE " ++ target ++ " ADD CONSTRAINT " ++ (← quoted name) ++ " " ++ definition ++
    ";"

/-- The place of a constraint of a partition: a foreign key waits for all tables, or for all files
when it refers to another schema than that of the file. -/
def placeOwnConstraint (fileSchema : Str) (ddl : PartitionDdl) (kind : Str)
    (refSchema : Option Str) (statement : Str) : PartitionDdl :=
  if kind = "f".toList then
    if refSchema.any (· ≠ fileSchema) then
      { ddl with crossSchema := ddl.crossSchema ++ [statement] }
    else { ddl with after := ddl.after ++ [statement] }
  else { ddl with create := ddl.create ++ [statement] }

def addOwnConstraint (fileSchema target : Str) (ddl : PartitionDdl) (row : OwnConstraintRow) :
    Answer (PgError σ) PartitionDdl := do
  let name ← tryGetOrWarn row.name "name" schema table
  let kind ← tryGetOrWarn row.kind "kind" schema table
  let definition ← tryGetOrWarn row.definition "definition" schema table
  let refSchema ← tryGetOrWarn row.refSchema "ref_schema" schema table
  let statement ← build (ownConstraintStatement target name definition)
  return placeOwnConstraint fileSchema ddl kind refSchema statement

/-- The constraints of the partition `schema.table` that are not inherited. -/
def fetchPartitionOwnObjects (fileSchema : Str) : Answer (PgError σ) PartitionDdl := do
  let rows ← query schema table (server.ownConstraints schema table)
  let target ← build (quotedRelation schema table)
  rows.foldlM (addOwnConstraint schema table fileSchema target) ({} : PartitionDdl)

def readTreeIndex (row : TreeIndexRow) : Answer (PgError σ) TreeIndex := do
  let oid ← tryGetOrWarn row.oid "oid" schema table
  let level ← tryGetOrWarn row.level "level" schema table
  let parent ← tryGetOrWarn row.parent "parent" schema table
  let definition ← tryGetOrWarn row.definition "definition" schema table
  return { oid, level, parent, definition }

def fetchTreeIndexes : Answer (PgError σ) (List Str) := do
  let rows ← query schema table (server.treeIndexes schema table)
  let indexes ← rows.mapM (readTreeIndex schema table)
  return orderTreeIndexes indexes

/-- One partition. -/
def addPartition (ddl : PartitionDdl) (row : PartitionRow) : Answer (PgError σ) PartitionDdl := do
  let childSchema ← tryGetOrWarn row.childSchema "child_schema" schema table
  let child ← tryGetOrWarn row.childName "child_name" schema table
  let partitionKey ← tryGetOrWarn row.partitionKey "partition_key" schema table
  let foreignServer ← tryGetOrWarn row.foreignServer "foreign_server" schema table
  let foreign ← readForeign schema table foreignServer row.foreignOptions
  let parentSchema ← tryGetOrWarn row.parentSchema "parent_schema" schema table
  let parent ← tryGetOrWarn row.parentName "parent_name" schema table
  let bound ← tryGetOrWarn row.bound "bound" schema table
  let statement ← build
    (buildPartitionDdl (childSchema, child) (parentSchema, parent) bound partitionKey foreign)
  let columnOptions ← fetchForeignOptions server childSchema child foreign
  let own ← fetchPartitionOwnObjects server childSchema child schema
  let comments ← fetchCommentDdl server childSchema child
  return { ddl with
    create := ddl.create ++ [statement] ++ columnOptions ++ own.create ++ comments
    after := ddl.after ++ own.after
    crossSchema := ddl.crossSchema ++ own.crossSchema }

def fetchPartitionsDdl : Answer (PgError σ) PartitionDdl := do
  let rows ← query schema table (server.partitions schema table)
  let ddl ← rows.foldlM (addPartition server schema table) {}
  let indexes ← fetchTreeIndexes server schema table
  return { ddl with indexes }

/-- The partitions, of a partitioned table only. -/
def fetchPartitionsOf (partitionKey : Option Str) : Answer (PgError σ) PartitionDdl :=
  if partitionKey.isSome then fetchPartitionsDdl server schema table else pure {}

/-- The indexes of a table; those of a partitioned table are made with its partitions. -/
def fetchPlainIndexDefs (partitionKey : Option Str) : Answer (PgError σ) (List Str) :=
  if partitionKey.isSome then pure [] else fetchIndexDefs server schema table

/-! ### Columns -/

/-- `PgIdentity::from_catalog`. -/
def PgIdentity.fromCatalog (attidentity : Str) (sequence : Option PgIdentitySequence) :
    Option PgIdentity :=
  if attidentity = "a".toList then some ⟨true, sequence⟩
  else if attidentity = "d".toList then some ⟨false, sequence⟩
  else none

/-- `PgGenerated::from_catalog`. -/
def PgGenerated.fromCatalog (attgenerated : Str) (expression : Option Str) : Option PgGenerated :=
  if attgenerated = "s".toList then expression.map .stored
  else if attgenerated = "v".toList then expression.map .virtual
  else none

/-- A column with the statement that sets its default later, behind the tables of the schema or
behind all files. -/
structure ReadColumn where
  column : PgDdlColumn
  deferredDefault : Option Str := none
  crossSchemaDefault : Option Str := none
  deriving DecidableEq, Repr

/-- `ALTER TABLE .. ALTER COLUMN .. SET DEFAULT ..;` -/
def setDefaultStatement (quotedTable column default : Str) : Except Failure Str := do
  return "ALTER TABLE " ++ quotedTable ++ " ALTER COLUMN " ++ (← quoted column) ++
    " SET DEFAULT " ++ default ++ ";"

def readIdentitySequence (row : DdlColumnRow) (name : Str) :
    Answer (PgError σ) PgIdentitySequence := do
  let seqSchema ← tryGetOrWarn row.identitySeqSchema "identity_seq_schema" schema table
  let start ← tryGetOrWarn row.identityStart "identity_start" schema table
  let increment ← tryGetOrWarn row.identityIncrement "identity_increment" schema table
  let min ← tryGetOrWarn row.identityMin "identity_min" schema table
  let max ← tryGetOrWarn row.identityMax "identity_max" schema table
  let cache ← tryGetOrWarn row.identityCache "identity_cache" schema table
  let cycle ← tryGetOrWarn row.identityCycle "identity_cycle" schema table
  return { schema := seqSchema, name, start, increment, min, max, cache, cycle }

/-- The default of a column, or the statement that sets it later. -/
def readDefault (quotedTable column : Str) (columnDefault defaultAfter : Option Str) :
    Answer (PgError σ) (Option Str × Option Str × Option Str) :=
  match columnDefault, defaultAfter with
  | some default, some seqSchema => do
    let statement ← build (setDefaultStatement quotedTable column default)
    if seqSchema = schema then return (none, some statement, none)
    else return (none, none, some statement)
  | default, _ => return (default, none, none)

def readColumn (quotedTable : Str) (row : DdlColumnRow) : Answer (PgError σ) ReadColumn := do
  let name ← tryGetOrWarn row.columnName "column_name" schema table
  let dataType ← tryGetOrWarn row.dataType "data_type" schema table
  let isNullable ← tryGetOrWarn row.isNullable "is_nullable" schema table
  let columnDefault ← tryGetOrWarn row.columnDefault "column_default" schema table
  let defaultAfter ← tryGetOrWarn row.defaultAfterSchema "default_after_schema" schema table
  let (defaultValue, deferredDefault, crossSchemaDefault) ←
    readDefault schema quotedTable name columnDefault defaultAfter
  let attgenerated ← tryGetOrWarn row.attgenerated "attgenerated" schema table
  let generationExpression ←
    tryGetOrWarn row.generationExpression "generation_expression" schema table
  let attidentity ← tryGetOrWarn row.attidentity "attidentity" schema table
  let seqName ← tryGetOrWarn row.identitySeqName "identity_seq_name" schema table
  let sequence ← seqName.mapM (readIdentitySequence schema table row)
  let column : PgDdlColumn := {
    name, dataType, isNullable, defaultValue
    generated := PgGenerated.fromCatalog attgenerated generationExpression
    identity := PgIdentity.fromCatalog attidentity sequence }
  return { column, deferredDefault, crossSchemaDefault }

/-! ### The statements of a relation -/

/-- Statements behind others, one on a line. -/
def appendStatements (ddl : Str) (statements : List Str) : Str :=
  ddl ++ statements.flatMap fun s => s ++ "\n".toList

/-- What is read of the relation itself. -/
structure RelationInfo where
  relkind : Str := []
  viewDef : Option Str := none
  reloptions : List Str := []
  partitionKey : Option Str := none
  foreign : Option Str := none

/-- A relation that is not there has nothing. -/
def readRelation (relation : Option RelationRow) : Answer (PgError σ) RelationInfo :=
  match relation with
  | none => return {}
  | some row => do
    let relkind ← tryGetOrWarn row.relkind "relkind" schema table
    let viewDef ← tryGetOrWarn row.viewDef "view_def" schema table
    let reloptions ← tryGetOrWarn row.reloptions "reloptions" schema table
    let partitionKey ← tryGetOrWarn row.partitionKey "partition_key" schema table
    let foreignServer ← tryGetOrWarn row.foreignServer "foreign_server" schema table
    let foreign ← readForeign schema table foreignServer row.foreignOptions
    return {
      relkind := relkind.getD [], viewDef, reloptions := reloptions.getD [], partitionKey, foreign }

def fetchMaterializedViewDdl (definition : Str) (reloptions : List Str) :
    Answer (PgError σ) Str := do
  let indexDefs ← fetchIndexDefs server schema table
  let ddl ← buildApp (buildPgMaterializedViewDdl schema table definition reloptions)
  return appendStatements ddl (indexDefs.map (· ++ ";".toList))

/-- The statements of a view or materialized view. -/
def fetchViewDdl (relkind definition : Str) (reloptions comments : List Str) :
    Answer (PgError σ) TableDdl := do
  let create ←
    if relkind = "m".toList then fetchMaterializedViewDdl server schema table definition reloptions
    else buildApp (buildPgViewDdl schema table definition reloptions)
  return { create := appendStatements create comments }

/-- The statements of a table, partitioned table or foreign table. -/
def fetchBaseTableDdl (partitionKey foreign : Option Str) (comments : List Str) :
    Answer (PgError σ) TableDdl := do
  let rows ← query schema table (server.columns schema table)
  let quotedTable ← build (quotedRelation schema table)
  let columns ← rows.mapM (readColumn schema table quotedTable)
  let constraints ← fetchConstraints server schema table
  let indexDefs ← fetchPlainIndexDefs server schema table partitionKey
  let create ← build (buildTableDdl schema table (columns.map ReadColumn.column) constraints
    indexDefs { partitionKey, foreign })
  let columnOptions ← fetchForeignOptions server schema table foreign
  let (crossFks, rest) := partitionConstraints schema constraints
  let afterFks ← build (buildPgFkDdl schema table rest)
  let crossSchemaFks ← build (buildPgFkDdl schema table crossFks)
  let partitions ← fetchPartitionsOf server schema table partitionKey
  let ownership ← fetchSequenceOwnership server schema table
  return {
    create := appendStatements create
      (columnOptions ++ partitions.create ++ partitions.indexes ++ ownership ++ comments)
    after := columns.filterMap ReadColumn.deferredDefault ++ afterFks ++ partitions.after
    crossSchema := columns.filterMap ReadColumn.crossSchemaDefault ++ crossSchemaFks ++
      partitions.crossSchema }

/-- `fetch_table_ddl`. -/
def fetchTableDdl : Answer (PgError σ) TableDdl := do
  let row ← query schema table (server.relation schema table)
  let relation ← readRelation schema table row
  let comments ← fetchCommentDdl server schema table
  match relation.viewDef with
  | some definition =>
    fetchViewDdl server schema table relation.relkind definition relation.reloptions comments
  | none => fetchBaseTableDdl server schema table relation.partitionKey relation.foreign comments

end TdExport.Postgres
