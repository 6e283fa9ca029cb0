import TdExport.Identifier

/-!
# Columns and constraints of a PostgreSQL table

`db/postgres/types.rs`: what the statements of a table are made of.
-/

namespace TdExport.Postgres

open Core

/-- Why no statement is made: an error that is returned, or the branch of the source that its
author takes to be unreachable. -/
inductive Failure where
  | error (e : AppError)
  | unreachable
  deriving DecidableEq, Repr

/-- The failure is the error that refuses an identifier. -/
def Failure.IsUnsafeIdentifier (f : Failure) : Prop :=
  ∃ reason, f = .error (.unsafeIdentifier reason)

/-- `quote_pg_identifier`, with its error passed on. -/
def quoted (id : Str) : Except Failure Str := (quotePgIdentifier id).mapError .error

/-- The sequence of an identity column. -/
structure PgIdentitySequence where
  schema : Str
  name : Str
  start : ℤ
  increment : ℤ
  min : ℤ
  max : ℤ
  cache : ℤ
  cycle : Bool
  deriving DecidableEq, Repr

structure PgIdentity where
  always : Bool
  sequence : Option PgIdentitySequence
  deriving DecidableEq, Repr

/-- The options of the sequence of an identity column. -/
def PgIdentitySequence.options (seq : PgIdentitySequence) : Except Failure Str := do
  let schema ← quoted seq.schema
  let name ← quoted seq.name
  let cycle : Str := if seq.cycle then " CYCLE" else []
  return " (SEQUENCE NAME " ++ schema ++ "." ++ name ++ " START WITH " ++ intStr seq.start ++
    " INCREMENT BY " ++ intStr seq.increment ++ " MINVALUE " ++ intStr seq.min ++
    " MAXVALUE " ++ intStr seq.max ++ " CACHE " ++ intStr seq.cache ++ cycle ++ ")"

/-- The clause of an identity column. -/
def PgIdentity.toSql (i : PgIdentity) : Except Failure Str := do
  let kind : Str := if i.always then "ALWAYS" else "BY DEFAULT"
  let options ← i.sequence.elim (pure []) PgIdentitySequence.options
  return " GENERATED " ++ kind ++ " AS IDENTITY" ++ options

/-- The expression of a generated column. -/
inductive PgGenerated where
  | stored (expr : Str)
  | virtual (expr : Str)
  deriving DecidableEq, Repr

structure PgDdlColumn where
  name : Str
  dataType : Str
  isNullable : Bool
  defaultValue : Option Str := none
  generated : Option PgGenerated := none
  identity : Option PgIdentity := none
  deriving DecidableEq, Repr

structure PgForeignKey where
  refSchema : Str
  refTable : Str
  refColumns : List Str
  onDelete : Str
  onUpdate : Str
  matchType : Option Str := none
  deferrable : Option Str := none
  deriving DecidableEq, Repr

inductive PgConstraintType where
  | primaryKey
  | unique
  | foreignKey (fk : PgForeignKey)
  | check (expression : Str)
  | exclude (definition : Str)
  | notNull
  deriving DecidableEq, Repr

/-- `definition` is the text of `pg_get_constraintdef`, when the constraint was read from the
catalog. -/
structure PgDdlConstraint where
  name : Str
  constraintType : PgConstraintType
  columns : List Str
  definition : Option Str
  deriving DecidableEq, Repr

/-- The columns of `columns` in double quotes, separated by commas. -/
def quoteColumnList (columns : List Str) : Except Failure Str := do
  let quotedColumns ← columns.mapM quoted
  return ", ".toList.intercalate quotedColumns

end TdExport.Postgres
