import TdExport.Db.Client
import TdExport.Db.MySql.Definer
import TdExport.Identifier

/-!
# Definitions as the MySQL server shows them

`get_table_ddl` of `db/mysql.rs` and `get_schema_ddl` of `db/mysql/routines.rs`: the statements come
from `SHOW CREATE`. A routine whose statement cannot be read is left out with a warning.
-/

namespace TdExport.MySql

open Core

/-- What `ddl_column` makes of each column of a row. -/
abbrev ShowRow := Str → Option Str

/-- `routine_block`: the statement of a routine, in which there may be semicolons, under the
`SQL_MODE` that it was made under. -/
def routineBlock (create sqlMode : Str) : Str :=
  "SET @OLD_ROUTINE_SQL_MODE = @@SQL_MODE, SQL_MODE = " ++ quoteStringLiteral sqlMode ++ ";\n" ++
    "DELIMITER ;;\n" ++ create ++ ";;\nDELIMITER ;\n" ++ "SET SQL_MODE = @OLD_ROUTINE_SQL_MODE;"

/-- What the server answers. The routines of a schema have a kind and a name; `SHOW CREATE` is asked
with a current database or without one. -/
structure MySqlServer (σ : Type) where
  routines : Str → Except σ (List (Str × Str))
  use : Str → Except σ Unit
  showCreate : Option Str → Str → Except σ ShowRow

/-- The errors of the client. -/
inductive MySqlError (σ : Type) where
  | metadataQuery (schema table : Str) (source : σ)
  | rowNotFound (schema table : Str)
  | identifier (error : AppError)
  deriving DecidableEq

section Fetch

variable {σ : Type} (server : MySqlServer σ) (skipDefiner : Bool)
  (display : MySqlError σ → Str) (schema : Str)

/-- A query for a relation, with its error put into words. -/
def query {α : Type} (table : Str) (answer : Except σ α) : Answer (MySqlError σ) α :=
  .ofExcept (answer.mapError (.metadataQuery schema table))

def quoted (name : Str) : Answer (MySqlError σ) Str :=
  .ofExcept ((quoteIdentifier name).mapError .identifier)

/-- A definition without its definer, when this is asked for and one is found. -/
def definerPolicy (name ddl : Str) : Answer (MySqlError σ) Str :=
  if skipDefiner then
    match withoutDefiner ddl with
    | some ddl => pure ddl
    | none => do
      .warn (.client (schema ++ "." ++ name ++ ": DEFINER 절을 찾지 못해 그대로 출력"))
      return ddl
  else pure ddl

/-! ### Tables and views -/

def showCreate (table : Str) : Answer (MySqlError σ) ShowRow := do
  let quotedSchema ← quoted schema
  let quotedTable ← quoted table
  query schema table (server.use ("USE " ++ quotedSchema))
  query schema table (server.showCreate (some quotedSchema)
    ("SHOW CREATE TABLE " ++ quotedSchema ++ "." ++ quotedTable))

/-- The column of a view is there when that of a table is not. -/
def getTableDdl (table : Str) : Answer (MySqlError σ) TableDdl := do
  let row ← showCreate server schema table
  match row "Create Table" with
  | some create => return { create }
  | none =>
    match row "Create View" with
    | some view => return { create := ← definerPolicy skipDefiner schema table view }
    | none => .ofExcept (.error (.rowNotFound schema table))

/-! ### Routines -/

/-- The keyword for a kind of routine, and the column of its statement. -/
def routineKind (kind : Str) : Str × Str :=
  if kind = "FUNCTION".toList then ("FUNCTION", "Create Function")
  else ("PROCEDURE", "Create Procedure")

/-- The block of a routine, when its statement may be read. -/
def routineDdl (kind name : Str) : Answer (MySqlError σ) (Option Str) := do
  let quotedSchema ← quoted schema
  let quotedName ← quoted name
  let row ← query schema name (server.showCreate none
    ("SHOW CREATE " ++ (routineKind kind).1 ++ " " ++ quotedSchema ++ "." ++ quotedName))
  match row (routineKind kind).2 with
  | none => return none
  | some create =>
    let sqlMode := (row "sql_mode").getD []
    return some (routineBlock (← definerPolicy skipDefiner schema name create) sqlMode)

/-- A routine of the loop: its block, or a warning. -/
def tryRoutine (kind name : Str) : Answer (MySqlError σ) (Option Str) :=
  let answer := routineDdl server skipDefiner schema kind name
  let warning (text : Str) : Warning (MySqlError σ) :=
    .client (schema ++ "." ++ name ++ " (" ++ kind ++ ") " ++ text)
  match answer.result with
  | .ok (some statement) => ⟨answer.warnings, .ok (some statement)⟩
  | .ok none => ⟨answer.warnings ++
      [warning "생성문을 읽을 권한이 없어 생략 (SHOW_ROUTINE 또는 정의자 필요)"], .ok none⟩
  | .error e => ⟨answer.warnings ++ [warning ("생성문 생략: " ++ display e)], .ok none⟩

def getSchemaDdl : Answer (MySqlError σ) SchemaDdl := do
  let routines ← query schema "ROUTINES" (server.routines schema)
  let before ← routines.mapM fun r => tryRoutine server skipDefiner display schema r.1 r.2
  return { before := before.filterMap id }

end Fetch

end TdExport.MySql
