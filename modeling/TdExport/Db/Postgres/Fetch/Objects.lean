import TdExport.Db.Postgres.Ddl.ViewDdl
import TdExport.Db.Postgres.Fetch.Basic

/-!
# The parts of a PostgreSQL relation

What `fetch_table_ddl` of `db/postgres/ddl.rs` asks for: constraints, indexes, comments, the options
of foreign tables and the ownership of sequences.
-/

namespace TdExport.Postgres

open Core

variable {σ : Type} (server : PgRelations σ) (schema table : Str)

/-! ### Constraints -/

/-- `fk_action`: the words for `confdeltype` and `confupdtype`. -/
def fkAction (code : Str) : Str :=
  if code = "r".toList then "RESTRICT"
  else if code = "c".toList then "CASCADE"
  else if code = "n".toList then "SET NULL"
  else if code = "d".toList then "SET DEFAULT"
  else "NO ACTION"

/-- `extract_check_expression`: the inside of `CHECK (..)`. -/
def extractCheckExpression (condef : Str) : Str :=
  match splitOnce "CHECK (" (toAsciiUppercase condef) with
  | some (before, _) =>
    let rest := condef.drop (before.length + "CHECK (".length)
    (stripSuffix ")" rest).getD rest
  | none => condef

/-- The words for `confmatchtype`; a simple match has none. -/
def matchType (code : Str) : Option Str :=
  if code = "f".toList then some "FULL"
  else if code = "p".toList then some "PARTIAL"
  else none

def deferrableText (deferrable deferred : Bool) : Option Str :=
  if deferrable then some (if deferred then "DEFERRABLE INITIALLY DEFERRED" else "DEFERRABLE")
  else none

/-- The kind of a constraint by its `contype`; `none` for a kind that is left out. -/
def readConstraintType (row : ConstraintRow) (contype condef : Str)
    (refSchema refTable : Option Str) (refColumns : List Str) :
    Answer (PgError σ) (Option PgConstraintType) := do
  if contype = "p".toList then return some .primaryKey
  else if contype = "u".toList then return some .unique
  else if contype = "f".toList then
    let deferrable ← tryGetOrWarn row.condeferrable "condeferrable" schema table
    let deferred ← tryGetOrWarn row.condeferred "condeferred" schema table
    let deleteCode ← tryGetOrWarn row.deleteCode "delete_code" schema table
    let updateCode ← tryGetOrWarn row.updateCode "update_code" schema table
    let matchCode ← tryGetOrWarn row.matchCode "match_code" schema table
    return some (.foreignKey {
      refSchema := refSchema.getD []
      refTable := refTable.getD []
      refColumns
      onDelete := fkAction deleteCode
      onUpdate := fkAction updateCode
      matchType := matchType matchCode
      deferrable := deferrableText deferrable deferred })
  else if contype = "c".toList then return some (.check (extractCheckExpression condef))
  else if contype = "x".toList then return some (.exclude condef)
  else if contype = "n".toList then return some .notNull
  else return none

def readConstraint (row : ConstraintRow) : Answer (PgError σ) (Option PgDdlConstraint) := do
  let conname ← tryGetOrWarn row.conname "conname" schema table
  let contype ← tryGetOrWarn row.contype "contype" schema table
  let localColNames ← tryGetOrWarn row.localColNames "local_col_names" schema table
  let refColNames ← tryGetOrWarn row.refColNames "ref_col_names" schema table
  let condef ← tryGetOrWarn row.condef "condef" schema table
  let refSchema ← tryGetOrWarn row.refSchema "ref_schema" schema table
  let refTable ← tryGetOrWarn row.refTable "ref_table" schema table
  let constraintType ←
    readConstraintType schema table row contype condef refSchema refTable (refColNames.getD [])
  return constraintType.map fun constraintType =>
    { name := conname, constraintType, columns := localColNames.getD [], definition := some condef }

def fetchConstraints : Answer (PgError σ) (List PgDdlConstraint) := do
  let rows ← query schema table (server.constraints schema table)
  let constraints ← rows.mapM (readConstraint schema table)
  return constraints.filterMap id

/-! ### Indexes, comments, options and sequences -/

def fetchIndexDefs : Answer (PgError σ) (List Str) := do
  let rows ← query schema table (server.indexDefs schema table)
  let defs ← rows.mapM fun row => tryGetOrWarn row "indexdef" schema table
  return defs.filter (· ≠ [])

def fetchCommentDdl : Answer (PgError σ) (List Str) := do
  let rows ← query schema table (server.comments schema table)
  rows.mapM fun row => do
    let relkind ← tryGetOrWarn row.relkind "relkind" schema table
    let column ← tryGetOrWarn row.columnName "column_name" schema table
    let comment ← tryGetOrWarn row.comment "comment" schema table
    buildApp (buildCommentDdl schema table relkind column comment)

/-- `ALTER FOREIGN TABLE .. ALTER COLUMN .. OPTIONS (..);` -/
def columnOptionsStatement (target column : Str) (options : List Str) : Except Failure Str := do
  let column ← quoted column
  let clause ← (optionsClause options).mapError .error
  return "ALTER FOREIGN TABLE " ++ target ++ " ALTER COLUMN " ++ column ++ " " ++ clause ++ ";"

def fetchColumnOptionsDdl : Answer (PgError σ) (List Str) := do
  let rows ← query schema table (server.columnOptions schema table)
  let target ← build (quotedRelation schema table)
  rows.mapM fun row => do
    let column ← tryGetOrWarn row.columnName "column_name" schema table
    let options ← tryGetOrWarn row.options "options" schema table
    build (columnOptionsStatement target column options)

/-- The options of the columns, of a foreign table only. -/
def fetchForeignOptions (foreign : Option Str) : Answer (PgError σ) (List Str) :=
  if foreign.isSome then fetchColumnOptionsDdl server schema table else pure []

/-- `ALTER SEQUENCE .. OWNED BY ..;` -/
def ownershipStatement (quotedTable seqSchema seqName column : Str) : Except Failure Str := do
  let seqSchema ← quoted seqSchema
  let seqName ← quoted seqName
  let column ← quoted column
  return "ALTER SEQUENCE " ++ seqSchema ++ "." ++ seqName ++ " OWNED BY " ++ quotedTable ++ "." ++
    column ++ ";"

def fetchSequenceOwnership : Answer (PgError σ) (List Str) := do
  let rows ← query schema table (server.sequenceOwnership schema table)
  let quotedTable ← build (quotedRelation schema table)
  rows.mapM fun row => do
    let seqSchema ← tryGetOrWarn row.seqSchema "seq_schema" schema table
    let seqName ← tryGetOrWarn row.seqName "seq_name" schema table
    let column ← tryGetOrWarn row.columnName "column_name" schema table
    build (ownershipStatement quotedTable seqSchema seqName column)

/-- The `SERVER` clause of a foreign table; `none` when there is no server. -/
def readForeign (foreignServer : Option Str) (foreignOptions : Cell (Option (List Str))) :
    Answer (PgError σ) (Option Str) :=
  match foreignServer with
  | some foreignServer => do
    let options ← tryGetOrWarn foreignOptions "foreign_options" schema table
    some <$> buildApp (buildForeignSuffix foreignServer (options.getD []))
  | none => return none

end TdExport.Postgres
