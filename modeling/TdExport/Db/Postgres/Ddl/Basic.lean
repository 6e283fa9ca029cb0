import TdExport.Core.StableSort
import TdExport.Db.Postgres.Types

/-!
# The statements of a PostgreSQL table

`db/postgres/ddl.rs`: the `CREATE TABLE` statement with its columns and constraints, and the
`ALTER TABLE` statements that are run after all tables.
-/

namespace TdExport.Postgres

open Core

/-- What sets a partitioned or a foreign table apart. -/
structure TableOptions where
  partitionKey : Option Str := none
  foreign : Option Str := none
  deriving DecidableEq, Repr

namespace PgDdlConstraint

variable (c : PgDdlConstraint)

/-- The constraint was made with `NOT VALID`. -/
def isNotValid : Bool := c.definition.any fun d => " NOT VALID".toList.isSuffixOf d

def isNotNull : Bool := c.constraintType = .notNull

/-- The place of the constraint among the entries of a table; `none` when it has no entry. -/
def order : Option ℕ :=
  match c.constraintType with
  | .primaryKey => some 0
  | .unique => some 1
  | .check _ => some 2
  | .exclude _ => some 3
  | .foreignKey _ | .notNull => none

/-- The constraint is an entry of `CREATE TABLE`. -/
def isInline : Bool := c.order.isSome && !c.isNotValid

/-- A `CHECK` or `NOT NULL` that is added behind the tables. -/
def isNotValidCheck : Bool :=
  (match c.constraintType with
    | .check _ | .notNull => true
    | _ => false) && c.isNotValid

def foreignKey? : Option PgForeignKey :=
  match c.constraintType with
  | .foreignKey fk => some fk
  | _ => none

/-- What a constraint says after its name: the text of the catalog, if there is one. -/
def body (cols : Str) : Except Failure Str :=
  match c.definition, c.constraintType with
  | some definition, _ => pure definition
  | none, .primaryKey => pure ("PRIMARY KEY (" ++ cols ++ ")")
  | none, .unique => pure ("UNIQUE (" ++ cols ++ ")")
  | none, .check expression => pure ("CHECK (" ++ expression ++ ")")
  | none, .exclude definition => pure definition
  | none, .notNull => pure ("NOT NULL " ++ cols)
  | none, .foreignKey _ => throw .unreachable

def constraintClause : Except Failure Str := do
  let quotedName ← quoted c.name
  let cols ← quoteColumnList c.columns
  let body ← c.body cols
  return "CONSTRAINT " ++ quotedName ++ " " ++ body

end PgDdlConstraint

/-! ### Columns -/

/-- The name of a `NOT NULL` constraint; the default name is left out. -/
def notNullName (table column : Str) (c : PgDdlConstraint) : Except Failure Str :=
  if c.name = table ++ "_" ++ column ++ "_not_null" then pure []
  else return " CONSTRAINT " ++ (← quoted c.name)

/-- The clause of a `NOT NULL` constraint. -/
def notNullClause (table column : Str) (c : PgDdlConstraint) : Except Failure Str := do
  let name ← notNullName table column c
  let noInherit : Str :=
    if c.definition.any (fun d => " NO INHERIT".toList.isSuffixOf d) then " NO INHERIT" else []
  return name ++ " NOT NULL" ++ noInherit

/-- The `NOT NULL` constraint of a column. -/
def columnNotNull (constraints : List PgDdlConstraint) (col : PgDdlColumn) :
    Option PgDdlConstraint :=
  constraints.find? fun c => c.isNotNull && c.columns == [col.name]

/-- What the entry of a column says about `NOT NULL`. -/
def notNullText (table : Str) (constraints : List PgDdlConstraint) (col : PgDdlColumn) :
    Except Failure Str :=
  match columnNotNull constraints col with
  | some c => if c.isNotValid then pure [] else notNullClause table col.name c
  | none => if col.isNullable then pure [] else pure " NOT NULL"

/-- The generation expression of a column, or its default. -/
def columnValue (col : PgDdlColumn) : Str :=
  match col.generated with
  | some (.stored expr) => " GENERATED ALWAYS AS (" ++ expr ++ ") STORED"
  | some (.virtual expr) => " GENERATED ALWAYS AS (" ++ expr ++ ") VIRTUAL"
  | none =>
    match col.defaultValue with
    | some default => " DEFAULT " ++ default
    | none => []

def identityClause (col : PgDdlColumn) : Except Failure Str :=
  match col.identity with
  | some identity => identity.toSql
  | none => pure []

/-- The entry of a column, given its quoted name and its clauses. -/
def columnDef (col : PgDdlColumn) (quotedCol notNull identity : Str) : Str :=
  "    " ++ quotedCol ++ " " ++ col.dataType ++ notNull ++ identity ++ columnValue col

def columnEntry (table : Str) (constraints : List PgDdlConstraint) (col : PgDdlColumn) :
    Except Failure Str := do
  let quotedCol ← quoted col.name
  let notNull ← notNullText table constraints col
  let identity ← identityClause col
  return columnDef col quotedCol notNull identity

/-! ### The statements -/

/-- The constraints that are entries of the table, sorted by their kind. -/
def inlineConstraints (constraints : List PgDdlConstraint) : List PgDdlConstraint :=
  sortByKey (fun c => c.order.getD 0) (constraints.filter PgDdlConstraint.isInline)

/-- The entry of a constraint. -/
def constraintEntry (c : PgDdlConstraint) : Except Failure Str := do
  return "    " ++ (← c.constraintClause)

/-- What follows the entries. -/
def tableSuffix (options : TableOptions) : Str :=
  match options.foreign, options.partitionKey with
  | some foreign, _ => "\n) " ++ foreign ++ ";\n"
  | none, some key => "\n) PARTITION BY " ++ key ++ ";\n"
  | none, none => "\n);\n"

/-- `CREATE [FOREIGN] TABLE "schema"."table" (` -/
def tableHead (schema table : Str) (options : TableOptions) : Except Failure Str := do
  let quotedSchema ← quoted schema
  let quotedTable ← quoted table
  let keyword : Str := if options.foreign.isSome then "CREATE FOREIGN TABLE" else "CREATE TABLE"
  return keyword ++ " " ++ quotedSchema ++ "." ++ quotedTable ++ " (\n"

/-- The statements of the indexes. -/
def indexStatements (indexDefs : List Str) : Str := indexDefs.flatMap fun s => s ++ ";\n".toList

/-- The statement that creates a table, followed by those of its indexes. -/
def buildTableDdl (schema table : Str) (columns : List PgDdlColumn)
    (constraints : List PgDdlConstraint) (indexDefs : List Str) (options : TableOptions) :
    Except Failure Str := do
  let head ← tableHead schema table options
  let columnEntries ← columns.mapM (columnEntry table constraints)
  let constraintEntries ← (inlineConstraints constraints).mapM constraintEntry
  return head ++ ",\n".toList.intercalate (columnEntries ++ constraintEntries) ++
    tableSuffix options ++ indexStatements indexDefs

/-- The statement of a plain table. -/
def buildPgDdlFromMetadata (schema table : Str) (columns : List PgDdlColumn)
    (constraints : List PgDdlConstraint) (indexDefs : List Str) : Except Failure Str :=
  buildTableDdl schema table columns constraints indexDefs {}

/-- `"schema"."table"` -/
def quotedRelation (schema table : Str) : Except Failure Str := do
  let quotedSchema ← quoted schema
  let quotedTable ← quoted table
  return quotedSchema ++ "." ++ quotedTable

/-- The statement that adds a `CHECK` or `NOT NULL` that is not validated. -/
def checkStatement (relation : Str) (c : PgDdlConstraint) : Except Failure Str := do
  return "ALTER TABLE " ++ relation ++ " ADD " ++ (← c.constraintClause) ++ ";"

/-- The statement that adds a foreign key. -/
def foreignKeyStatement (relation : Str) (c : PgDdlConstraint) (fk : PgForeignKey) :
    Except Failure Str := do
  let quotedName ← quoted c.name
  let localCols ← quoteColumnList c.columns
  let quotedRef ← quotedRelation fk.refSchema fk.refTable
  let refCols ← quoteColumnList fk.refColumns
  let optional (before : Str) (s : Option Str) : Str := (s.map (before ++ ·)).getD []
  let body : Str := match c.definition with
    | some definition => definition
    | none => "FOREIGN KEY (" ++ localCols ++ ") REFERENCES " ++ quotedRef ++ " (" ++ refCols ++
        ")" ++ optional " MATCH " fk.matchType ++ " ON DELETE " ++ fk.onDelete ++ " ON UPDATE " ++
        fk.onUpdate ++ optional " " fk.deferrable
  return "ALTER TABLE " ++ relation ++ " ADD CONSTRAINT " ++ quotedName ++ " " ++ body ++ ";"

/-- The statements that are run after all tables: the constraints that are not validated, and the
foreign keys. -/
def buildPgFkDdl (schema table : Str) (constraints : List PgDdlConstraint) :
    Except Failure (List Str) := do
  let relation ← quotedRelation schema table
  let checks ← (constraints.filter PgDdlConstraint.isNotValidCheck).mapM (checkStatement relation)
  let foreignKeys ← (constraints.filterMap fun c => c.foreignKey?.map fun fk => (c, fk)).mapM
    fun p => foreignKeyStatement relation p.1 p.2
  return checks ++ foreignKeys

/-- A foreign key to a table of another schema. -/
def isCrossSchema (schema : Str) (c : PgDdlConstraint) : Bool :=
  c.foreignKey?.any fun fk => fk.refSchema ≠ schema

/-- The constraints of a table, as `fetch_table_ddl` parts them: the foreign keys to other schemas
and the rest. -/
def partitionConstraints (schema : Str) (constraints : List PgDdlConstraint) :
    List PgDdlConstraint × List PgDdlConstraint :=
  constraints.partition (isCrossSchema schema)

end TdExport.Postgres
