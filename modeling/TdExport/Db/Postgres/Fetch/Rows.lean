import TdExport.Db.Postgres.Fetch.Catalog

/-!
# The rows of a catalog

When the answers of the server hold the catalog of a table. A column that cannot be read counts as
its default.
-/

namespace TdExport.Postgres

open Core

variable {σ : Type}

/-- The expression of a generated column by its `attgenerated`. -/
def HasGenerated (kind : Str) (expression : Option Str) : Option PgGenerated → Prop
  | some (.stored expr) => kind = "s".toList ∧ expression = some expr
  | some (.virtual expr) => kind = "v".toList ∧ expression = some expr
  | none => kind ≠ "s".toList ∧ kind ≠ "v".toList ∨ expression = none

/-- The identity of a column by its `attidentity`. -/
def HasIdentity (kind : Str) (sequence : Option PgIdentitySequence) : Option PgIdentity → Prop
  | some i => kind = (if i.always then "a".toList else "d") ∧ sequence = i.sequence
  | none => kind ≠ "a".toList ∧ kind ≠ "d".toList

namespace DdlColumnRow

variable (row : DdlColumnRow)

/-- The sequence of an identity column. -/
def HoldsSequence : Option PgIdentitySequence → Prop
  | none => row.identitySeqName.read = none
  | some seq => row.identitySeqName.read = some seq.name ∧
      row.identitySeqSchema.read = seq.schema ∧ row.identityStart.read = seq.start ∧
      row.identityIncrement.read = seq.increment ∧ row.identityMin.read = seq.min ∧
      row.identityMax.read = seq.max ∧ row.identityCache.read = seq.cache ∧
      row.identityCycle.read = seq.cycle

/-- The row is that of a column. -/
structure Holds (c : CatalogColumn) : Prop where
  name : row.columnName.read = c.column.name
  dataType : row.dataType.read = c.column.dataType
  isNullable : row.isNullable.read = c.column.isNullable
  columnDefault : row.columnDefault.read = c.column.defaultValue
  after : row.defaultAfterSchema.read = c.after
  generated : HasGenerated row.attgenerated.read row.generationExpression.read c.column.generated
  identity : ∃ sequence, row.HoldsSequence sequence ∧
    HasIdentity row.attidentity.read sequence c.column.identity

end DdlColumnRow

namespace ConstraintRow

variable (row : ConstraintRow)

def HoldsForeignKey (fk : PgForeignKey) : Prop :=
  row.refSchema.read.getD [] = fk.refSchema ∧ row.refTable.read.getD [] = fk.refTable ∧
    row.refColNames.read.getD [] = fk.refColumns ∧ fkAction row.deleteCode.read = fk.onDelete ∧
    fkAction row.updateCode.read = fk.onUpdate ∧ matchType row.matchCode.read = fk.matchType ∧
    deferrableText row.condeferrable.read row.condeferred.read = fk.deferrable

/-- The kind of a constraint by its `contype`. -/
def HoldsKind : PgConstraintType → Prop
  | .primaryKey => row.contype.read = "p".toList
  | .unique => row.contype.read = "u".toList
  | .foreignKey fk => row.contype.read = "f".toList ∧ row.HoldsForeignKey fk
  | .check expression => row.contype.read = "c".toList ∧
      extractCheckExpression row.condef.read = expression
  | .exclude definition => row.contype.read = "x".toList ∧ row.condef.read = definition
  | .notNull => row.contype.read = "n".toList

/-- The row is that of a constraint, with the text that the catalog prints for it. -/
structure Holds (c : PgDdlConstraint) : Prop where
  name : row.conname.read = c.name
  kind : row.HoldsKind c.constraintType
  columns : row.localColNames.read.getD [] = c.columns
  definition : c.definition = some row.condef.read

end ConstraintRow

structure CommentRow.Holds (row : CommentRow) (c : CatalogComment) : Prop where
  relkind : row.relkind.read = c.relkind
  column : row.columnName.read = c.column
  comment : row.comment.read = c.comment

structure ColumnOptionsRow.Holds (row : ColumnOptionsRow) (c : Str × List Str) : Prop where
  column : row.columnName.read = c.1
  options : row.options.read = c.2

structure OwnershipRow.Holds (row : OwnershipRow) (s : OwnedSequence) : Prop where
  schema : row.seqSchema.read = s.schema
  name : row.seqName.read = s.name
  column : row.columnName.read = s.column

structure OwnConstraintRow.Holds (row : OwnConstraintRow) (c : OwnConstraint) : Prop where
  name : row.name.read = c.name
  kind : row.kind.read = "f".toList ↔ c.isForeignKey = true
  definition : row.definition.read = c.definition
  refSchema : row.refSchema.read = c.refSchema

structure TreeIndexRow.Holds (row : TreeIndexRow) (i : TreeIndex) : Prop where
  oid : row.oid.read = i.oid
  level : row.level.read = i.level
  parent : row.parent.read = i.parent
  definition : row.definition.read = i.definition

section Holds

variable (server : PgRelations σ)

/-- The server answers a query with rows of `l`. -/
def Answers {ρ α : Type} (answer : Except σ (List ρ)) (holds : ρ → α → Prop) (l : List α) : Prop :=
  ∃ rows, answer = .ok rows ∧ List.Forall₂ holds rows l

/-- The server of a foreign table, or none. -/
def HoldsForeign (name : Str × Str) (foreignServer : Cell (Option Str))
    (foreignOptions : Cell (Option (List Str))) : Option ForeignServer → Prop
  | none => foreignServer.read = none
  | some f => foreignServer.read = some f.server ∧ foreignOptions.read.getD [] = f.options ∧
      Answers (server.columnOptions name.1 name.2) ColumnOptionsRow.Holds f.columnOptions

/-- The row, and what else is asked for, is that of a partition. -/
structure PartitionRow.Holds (row : PartitionRow) (p : PartitionCatalog) : Prop where
  name : (row.childSchema.read, row.childName.read) = p.name
  parent : (row.parentSchema.read, row.parentName.read) = p.parent
  bound : row.bound.read = p.bound
  partitionKey : row.partitionKey.read = p.partitionKey
  foreign : HoldsForeign server p.name row.foreignServer row.foreignOptions p.foreign
  own : Answers (server.ownConstraints p.name.1 p.name.2) OwnConstraintRow.Holds p.own
  comments : Answers (server.comments p.name.1 p.name.2) CommentRow.Holds p.comments

/-- The indexes of a table, or its partitions with the indexes of all of them. -/
def HoldsStorage (schema table : Str) (partitionKey : Option Str) : Storage → Prop
  | .own indexes => partitionKey = none ∧ ∃ rows, server.indexDefs schema table = .ok rows ∧
      indexes = (rows.map Cell.read).filter (· ≠ [])
  | .tree key partitions indexes => partitionKey = some key ∧
      Answers (server.partitions schema table) (PartitionRow.Holds server) partitions ∧
      Answers (server.treeIndexes schema table) TreeIndexRow.Holds indexes

/-- The server answers the queries for a table with the rows of its catalog. -/
structure Holds (schema table : Str) (t : TableCatalog) : Prop where
  relation : ∃ row, server.relation schema table = .ok (some row) ∧ row.viewDef.read = none ∧
    HoldsForeign server (schema, table) row.foreignServer row.foreignOptions t.foreign ∧
    HoldsStorage server schema table row.partitionKey.read t.storage
  columns : Answers (server.columns schema table) DdlColumnRow.Holds t.columns
  constraints : Answers (server.constraints schema table) ConstraintRow.Holds t.constraints
  sequences : Answers (server.sequenceOwnership schema table) OwnershipRow.Holds t.sequences
  comments : Answers (server.comments schema table) CommentRow.Holds t.comments

end Holds

end TdExport.Postgres
