import TdExport.Db.Client
import TdExport.Db.Postgres.ColumnKeys
import TdExport.Db.Postgres.Types

/-!
# The PostgreSQL catalog as the client reads it

The queries of `db/postgres` and the columns of their rows. A row is what `try_get` makes of each of
its columns; a column that cannot be read is replaced by its default and reported.
-/

namespace TdExport.Postgres

open Core

/-- What `try_get` makes of a column: its value, or the text of the error. -/
abbrev Cell (α : Type) := Except Str α

/-- What is read of a column: its default when it cannot be read. -/
def Cell.read {α : Type} [Inhabited α] (cell : Cell α) : α := cell.toOption.getD default

/-! ### Rows -/

/-- The relation of a name: `relkind`, the query of a view, what sets a partitioned or a foreign
table apart. -/
structure RelationRow where
  relkind : Cell (Option Str)
  viewDef : Cell (Option Str)
  partitionKey : Cell (Option Str)
  reloptions : Cell (Option (List Str))
  foreignServer : Cell (Option Str)
  foreignOptions : Cell (Option (List Str))

/-- A column for the statement of its table. `defaultAfterSchema` is the schema of the identity
sequence of another table that the default uses. -/
structure DdlColumnRow where
  columnName : Cell Str
  dataType : Cell Str
  isNullable : Cell Bool
  columnDefault : Cell (Option Str)
  defaultAfterSchema : Cell (Option Str)
  attgenerated : Cell Str
  generationExpression : Cell (Option Str)
  attidentity : Cell Str
  identitySeqSchema : Cell Str
  identitySeqName : Cell (Option Str)
  identityStart : Cell ℤ
  identityIncrement : Cell ℤ
  identityMin : Cell ℤ
  identityMax : Cell ℤ
  identityCache : Cell ℤ
  identityCycle : Cell Bool

structure ConstraintRow where
  conname : Cell Str
  contype : Cell Str
  localColNames : Cell (Option (List Str))
  refColNames : Cell (Option (List Str))
  condef : Cell Str
  deleteCode : Cell Str
  updateCode : Cell Str
  matchCode : Cell Str
  condeferrable : Cell Bool
  condeferred : Cell Bool
  refSchema : Cell (Option Str)
  refTable : Cell (Option Str)

structure CommentRow where
  relkind : Cell Str
  columnName : Cell (Option Str)
  comment : Cell Str

/-- The options of a column of a foreign table. -/
structure ColumnOptionsRow where
  columnName : Cell Str
  options : Cell (List Str)

/-- A partition on any level below a table. -/
structure PartitionRow where
  childSchema : Cell Str
  childName : Cell Str
  parentSchema : Cell Str
  parentName : Cell Str
  bound : Cell Str
  partitionKey : Cell (Option Str)
  foreignServer : Cell (Option Str)
  foreignOptions : Cell (Option (List Str))

/-- A constraint of a partition that is not inherited. -/
structure OwnConstraintRow where
  name : Cell Str
  kind : Cell Str
  definition : Cell Str
  refSchema : Cell (Option Str)

/-- An index of a partition tree. -/
structure TreeIndexRow where
  oid : Cell ℤ
  level : Cell ℤ
  parent : Cell (Option ℤ)
  definition : Cell Str

/-- A sequence that a column owns. -/
structure OwnershipRow where
  seqSchema : Cell Str
  seqName : Cell Str
  columnName : Cell Str

/-! ### Queries -/

/-- What the server answers to the queries for a relation. `σ` are the errors of the driver. -/
structure PgRelations (σ : Type) where
  relation : Str → Str → Except σ (Option RelationRow)
  columns : Str → Str → Except σ (List DdlColumnRow)
  constraints : Str → Str → Except σ (List ConstraintRow)
  indexDefs : Str → Str → Except σ (List (Cell Str))
  comments : Str → Str → Except σ (List CommentRow)
  columnOptions : Str → Str → Except σ (List ColumnOptionsRow)
  partitions : Str → Str → Except σ (List PartitionRow)
  ownConstraints : Str → Str → Except σ (List OwnConstraintRow)
  treeIndexes : Str → Str → Except σ (List TreeIndexRow)
  sequenceOwnership : Str → Str → Except σ (List OwnershipRow)

/-- The errors of the client: a query that failed, or a statement that cannot be made. -/
inductive PgError (σ : Type) where
  | metadataQuery (schema table : Str) (source : σ)
  | statement (failure : Failure)
  deriving DecidableEq

section Reading

variable {σ ε α : Type}

/-- A query for a relation, with its error put into words. -/
def query (schema table : Str) (answer : Except σ α) : Answer (PgError σ) α :=
  .ofExcept (answer.mapError (.metadataQuery schema table))

/-- A statement that is made or cannot be made. -/
def build (statement : Except Failure α) : Answer (PgError σ) α :=
  .ofExcept (statement.mapError .statement)

def buildApp (statement : Except AppError α) : Answer (PgError σ) α :=
  build (statement.mapError .error)

/-- `try_get_or_warn`. -/
def tryGetOrWarn [Inhabited α] (cell : Cell α) (column schema table : Str) : Answer ε α :=
  match cell with
  | .ok value => pure value
  | .error e => ⟨[.missingColumn ⟨schema, table, column, e⟩], .ok default⟩

lemma gives_query {schema table : Str} {answer : Except σ α} {a : α} :
    (query schema table answer).Gives a ↔ answer = .ok a := by
  cases answer <;> simp [query, Except.mapError]

/-- Reading a column is no reason to fail. -/
lemma result_tryGetOrWarn [Inhabited α] (cell : Cell α) (column schema table : Str) :
    (tryGetOrWarn cell column schema table : Answer ε α).result = .ok cell.read := by
  cases cell <;> rfl

lemma result_query {schema table : Str} {answer : Except σ α} {a : α} (h : answer = .ok a) :
    (query schema table answer).result = .ok a := by
  rw [h]
  rfl

end Reading

end TdExport.Postgres
