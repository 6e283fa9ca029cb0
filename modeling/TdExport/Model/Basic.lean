import TdExport.Core.Str

/-!
# The data model

The types of `model.rs` and `error.rs`: what is read from the database and handed to the
exporters, and the settings of a run.
-/

namespace TdExport

open Core

/-- Why an identifier is refused. The message of `dangerous` shows the identifier itself. -/
inductive UnsafeReason where
  | dangerous (id : Str)
  | nullByte
  | notBackquoted (quoted : Str)
  | notDoubleQuoted (quoted : Str)
  deriving DecidableEq, Repr

/-- The errors of the modelled functions. -/
inductive AppError where
  | invalidOutputFormat (input : Str)
  | invalidDbType (input : Str)
  | missingInput (field : Str)
  | invalidPort (input : Str)
  | invalidTlsOption (message : Str)
  | unsafeIdentifier (reason : UnsafeReason)
  | fileWrite (source : Str)
  | inputRead (source : Str)
  deriving DecidableEq, Repr

/-! ### Settings -/

inductive OutputFormat where
  | excel
  | markdown
  | sql
  deriving DecidableEq, Repr

/-- `to_ascii_lowercase`. -/
def toAsciiLowercase (s : Str) : Str := s.map Char.toLower

/-- `to_ascii_uppercase`. -/
def toAsciiUppercase (s : Str) : Str := s.map Char.toUpper

def OutputFormat.fromStr (s : Str) : Except AppError OutputFormat :=
  let lower := toAsciiLowercase s
  if lower = "excel".toList then .ok .excel
  else if lower = "markdown".toList then .ok .markdown
  else if lower = "sql".toList then .ok .sql
  else .error (.invalidOutputFormat s)

inductive DbType where
  | mySql
  | postgres
  deriving DecidableEq, Repr

def DbType.fromStr (s : Str) : Except AppError DbType :=
  let lower := toAsciiLowercase s
  if lower = "mysql".toList then .ok .mySql
  else if lower = "postgres".toList ∨ lower = "postgresql".toList then .ok .postgres
  else .error (.invalidDbType s)

/-- The default port of a database. -/
def DbType.defaultPort : DbType → UInt16
  | .mySql => 3306
  | .postgres => 5432

inductive SslMode where
  | disable
  | prefer
  | require
  | verifyCa
  | verifyFull
  deriving DecidableEq, Repr

/-- The TLS settings; `ca` is the path of the CA certificate. -/
structure TlsOptions where
  mode : Option SslMode
  ca : Option Str
  deriving DecidableEq, Repr

/-- A CA certificate is accepted only with a mode that verifies the server. -/
def TlsOptions.new (mode : Option SslMode) (ca : Option Str) : Except AppError TlsOptions :=
  if ca.isSome ∧ ¬(mode = some .verifyCa ∨ mode = some .verifyFull) then
    .error (.invalidTlsOption
      "--ssl-ca 는 --ssl-mode verify-ca 또는 verify-full 과 함께 쓰세요".toList)
  else .ok ⟨mode, ca⟩

/-- All settings of one run. -/
structure RunConfig where
  endpoint : Str
  port : UInt16
  user : Str
  password : Str
  targetDb : Option (List Str)
  exceptTables : Option (List Str)
  outputFormat : OutputFormat
  dbType : DbType
  database : Option Str
  tls : TlsOptions
  skipDefiner : Bool
  deriving DecidableEq, Repr

/-! ### Metadata -/

/-- `tableType` is `BASE TABLE`, `VIEW`, `FOREIGN` or `MATERIALIZED VIEW`. -/
structure GeneralInfo where
  tableType : Str := []
  engine : Option Str := none
  rowFormat : Option Str := none
  collate : Option Str := none
  comment : Option Str := none
  deriving DecidableEq, Repr

/-- A table with a table of columns. -/
def GeneralInfo.isTable (g : GeneralInfo) : Bool :=
  g.tableType = "BASE TABLE".toList ∨ g.tableType = "FOREIGN".toList

/-- A view with a defining query. -/
def GeneralInfo.isView (g : GeneralInfo) : Bool :=
  g.tableType = "VIEW".toList ∨ g.tableType = "MATERIALIZED VIEW".toList

structure ColumnInfo where
  columnName : Str
  defaultValue : Option Str
  nullable : Str
  columnType : Str
  charset : Option Str
  collation : Option Str
  columnKey : Option Str
  extra : Option Str
  comment : Option Str
  deriving DecidableEq, Repr

/-- A generated column; `DEFAULT_GENERATED` marks an expression default and does not count. -/
def ColumnInfo.isGenerated (c : ColumnInfo) : Bool :=
  c.extra.any fun e =>
    containsStr "VIRTUAL GENERATED".toList e || containsStr "STORED GENERATED".toList e

/-- The default value as the documents show it. -/
def ColumnInfo.displayDefault (c : ColumnInfo) : Str :=
  match c.defaultValue with
  | none => if c.nullable = "YES".toList ∧ ¬c.isGenerated then "NULL".toList else []
  | some [] => "''".toList
  | some v => v

structure IndexInfo where
  indexName : Str
  nonUnique : ℤ
  indexColumns : Str
  predicate : Option Str
  indexType : Option Str
  includeColumns : Option Str
  deriving DecidableEq, Repr

/-- The kind of an index as the documents show it. -/
def IndexInfo.kindLabel (i : IndexInfo) : Str :=
  if i.indexType = some "FULLTEXT".toList then "Fulltext"
  else if i.indexType = some "SPATIAL".toList then "Spatial"
  else if i.indexType = some "EXCLUDE".toList then "Exclude"
  else if i.nonUnique = 0 then "Unique"
  else if i.indexType = some "HASH".toList then "Hash"
  else if i.indexType = some "GIN".toList then "GIN"
  else if i.indexType = some "GIST".toList then "GiST"
  else if i.indexType = some "BRIN".toList then "BRIN"
  else if i.indexType = some "SPGIST".toList then "SP-GiST"
  else "Normal"

/-- A foreign key. -/
structure ConstInfo where
  constraintName : Str
  constraintColumn : Str
  reference : Str
  deleteAction : Str
  updateAction : Str
  deriving DecidableEq, Repr

/-- What a foreign key of a table of `schema` refers to. -/
def fkReference (schema refSchema refTable : Str) (refColumns : List Str) : Str :=
  let table :=
    if refSchema = [] ∨ refSchema = schema then refTable else refSchema ++ "." ++ refTable
  match refColumns with
  | [single] => table ++ "." ++ single
  | columns => table ++ "(" ++ (", ".toList).intercalate columns ++ ")"

structure ViewInfo where
  viewQuery : Str
  charset : Str
  collate : Str
  deriving DecidableEq, Repr

/-- The metadata of one table or view. `ddlAfter` holds the statements to be run after all
tables, `ddlCrossSchema` those that refer to other schemas. -/
structure TableDef where
  tableName : Str
  general : GeneralInfo
  columns : List ColumnInfo := []
  indexes : List IndexInfo := []
  constraints : List ConstInfo := []
  view : Option ViewInfo := none
  ddl : Option Str := none
  ddlAfter : List Str := []
  ddlCrossSchema : List Str := []
  deriving DecidableEq, Repr

/-- The statements that create the objects of a schema, before and after its tables. -/
structure SchemaDdl where
  before : List Str := []
  afterTables : List Str := []
  deriving DecidableEq, Repr

/-! ### Unicode tables -/

/-- The parts of the standard library's Unicode tables that the program reads. Only their
ASCII part is fixed here: whatever the rest of the tables says, the results below hold. -/
structure Unicode where
  /-- One character of `to_lowercase`. -/
  lower : Char → Str
  /-- `char::is_alphanumeric`. -/
  isAlphanumeric : Char → Bool
  lower_ascii : ∀ c : Char, c.toNat < 128 → lower c = [c.toLower]
  isAlphanumeric_ascii : ∀ c : Char, c.toNat < 128 → isAlphanumeric c = c.isAlphanum

/-- The tables that know the ASCII letters only. -/
def Unicode.asciiOnly : Unicode where
  lower c := [c.toLower]
  isAlphanumeric c := c.isAlphanum
  lower_ascii _ _ := rfl
  isAlphanumeric_ascii _ _ := rfl

/-- `to_lowercase`, character by character. -/
def Unicode.toLowercase (u : Unicode) (s : Str) : Str := s.flatMap u.lower

@[simp] lemma Unicode.toLowercase_nil (u : Unicode) : u.toLowercase [] = [] := rfl

@[simp] lemma Unicode.toLowercase_append (u : Unicode) (s t : Str) :
    u.toLowercase (s ++ t) = u.toLowercase s ++ u.toLowercase t := by
  simp [Unicode.toLowercase]

end TdExport
