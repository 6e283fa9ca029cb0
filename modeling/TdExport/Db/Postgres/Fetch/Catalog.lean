import TdExport.Db.Postgres.Ddl.Safety
import TdExport.Db.Postgres.Fetch.TableDdl

/-!
# The catalog of a PostgreSQL table

What the catalog holds of a table and of its partitions, which names of it are to be safe, and the
statements that are to be made of it.
-/

namespace TdExport.Postgres

open Core Sql

/-! ### What the catalog holds -/

/-- The server of a foreign table, with the options of the table and those of its columns. -/
structure ForeignServer where
  server : Str
  options : List Str
  columnOptions : List (Str × List Str) := []
  deriving DecidableEq, Repr

/-- A comment on a relation or on one of its columns. -/
structure CatalogComment where
  relkind : Str
  column : Option Str
  comment : Str
  deriving DecidableEq, Repr

/-- A sequence that a column owns. -/
structure OwnedSequence where
  schema : Str
  name : Str
  column : Str
  deriving DecidableEq, Repr

/-- `after` is the schema of the identity sequence of another table that the default uses. -/
structure CatalogColumn where
  column : PgDdlColumn
  after : Option Str := none
  deriving DecidableEq, Repr

/-- A constraint of a partition that is not inherited. -/
structure OwnConstraint where
  name : Str
  definition : Str
  isForeignKey : Bool := false
  refSchema : Option Str := none
  deriving DecidableEq, Repr

/-- A partition on any level below a table. -/
structure PartitionCatalog where
  name : Str × Str
  parent : Str × Str
  bound : Str
  partitionKey : Option Str := none
  foreign : Option ForeignServer := none
  own : List OwnConstraint := []
  comments : List CatalogComment := []
  deriving DecidableEq, Repr

/-- The rows of a table are in the table itself or in its partitions. -/
inductive Storage where
  | own (indexes : List Str)
  | tree (key : Str) (partitions : List PartitionCatalog) (indexes : List TreeIndex)
  deriving DecidableEq, Repr

structure TableCatalog where
  columns : List CatalogColumn
  constraints : List PgDdlConstraint := []
  foreign : Option ForeignServer := none
  storage : Storage := .own []
  sequences : List OwnedSequence := []
  comments : List CatalogComment := []
  deriving DecidableEq, Repr

/-- The column as `CREATE TABLE` has it: a default that waits is left out. -/
def CatalogColumn.created (c : CatalogColumn) : PgDdlColumn :=
  { c.column with defaultValue := if c.after.isSome then none else c.column.defaultValue }

def TableCatalog.created (t : TableCatalog) : List PgDdlColumn :=
  t.columns.map CatalogColumn.created

namespace Storage

def partitionKey : Storage → Option Str
  | .own _ => none
  | .tree key _ _ => some key

/-- The partitions of a table, none when it has its rows itself. -/
def children : Storage → List PartitionCatalog
  | .own _ => []
  | .tree _ partitions _ => partitions

/-- The indexes of a table that has its rows itself. -/
def ownIndexes : Storage → List Str
  | .own indexes => indexes
  | .tree _ _ _ => []

/-- The statements of the indexes of a partition tree in the order of their keys. -/
def treeIndexTexts : Storage → List Str
  | .own _ => []
  | .tree _ _ indexes =>
    (sortByCachedKey (treeKey indexes) indexes).map fun i => withoutOnOnly i.definition ++ ";"

end Storage

/-! ### Its names -/

/-- The keys of options are safe. -/
def SafeOptions (options : List Str) : Prop := ∀ option ∈ options, SafeName (optionKey option)

/-- The columns of a foreign table and the keys of their options are safe. -/
def SafeColumnOptions (columnOptions : List (Str × List Str)) : Prop :=
  ∀ c ∈ columnOptions, SafeName c.1 ∧ SafeOptions c.2

structure ForeignServer.Safe (f : ForeignServer) : Prop where
  server : SafeName f.server
  options : SafeOptions f.options
  columnOptions : SafeColumnOptions f.columnOptions

def CatalogComment.Safe (c : CatalogComment) : Prop := ∀ column ∈ c.column, SafeName column

def OwnedSequence.Safe (s : OwnedSequence) : Prop :=
  SafeName s.schema ∧ SafeName s.name ∧ SafeName s.column

structure PartitionCatalog.Safe (p : PartitionCatalog) : Prop where
  name : SafeName p.name.1 ∧ SafeName p.name.2
  parent : SafeName p.parent.1 ∧ SafeName p.parent.2
  foreign : ∀ f ∈ p.foreign, f.Safe
  own : ∀ c ∈ p.own, SafeName c.name
  comments : ∀ c ∈ p.comments, c.Safe

/-- All names of a table and of its partitions are safe. -/
structure TableCatalog.Safe (schema table : Str) (t : TableCatalog) : Prop where
  table : SafeTable schema table t.created t.constraints
  foreign : ∀ f ∈ t.foreign, f.Safe
  partitions : ∀ p ∈ t.storage.children, p.Safe
  sequences : ∀ s ∈ t.sequences, s.Safe
  comments : ∀ c ∈ t.comments, c.Safe

/-! ### Its statements -/

section Texts

variable (schema table : Str)

/-- `ALTER TABLE .. ALTER COLUMN .. SET DEFAULT ..;` -/
def setDefaultText (column default : Str) : Str :=
  "ALTER TABLE " ++ relationText schema table ++ " ALTER COLUMN " ++ quotedBy '"' column ++
    " SET DEFAULT " ++ default ++ ";"

/-- `ALTER FOREIGN TABLE .. ALTER COLUMN .. OPTIONS (..);` -/
def columnOptionsText (c : Str × List Str) : Str :=
  "ALTER FOREIGN TABLE " ++ relationText schema table ++ " ALTER COLUMN " ++ quotedBy '"' c.1 ++
    " " ++ (clauseTokens c.2).flatMap PgToken.text ++ ";"

/-- `ALTER SEQUENCE .. OWNED BY ..;` -/
def ownershipText (s : OwnedSequence) : Str :=
  "ALTER SEQUENCE " ++ relationText s.schema s.name ++ " OWNED BY " ++ relationText schema table ++
    "." ++ quotedBy '"' s.column ++ ";"

/-- `COMMENT ON .. IS ..;` -/
def catalogCommentText (c : CatalogComment) : Str :=
  (commentTokens schema table c.relkind c.column c.comment ++ [PgToken.symbol ';']).flatMap
    PgToken.text

/-- `SERVER ..[ OPTIONS (..)]` -/
def ForeignServer.text (f : ForeignServer) : Str :=
  (foreignTokens f.server f.options).flatMap PgToken.text

/-- The statements for the options of the columns, of a foreign table only. -/
def columnOptionsTexts (foreign : Option ForeignServer) : List Str :=
  foreign.elim [] fun f => f.columnOptions.map (columnOptionsText schema table)

end Texts

namespace PartitionCatalog

variable (p : PartitionCatalog)

/-- `CREATE [FOREIGN] TABLE .. PARTITION OF .. bound[ PARTITION BY key][ SERVER ..];` -/
def createText : Str :=
  (if p.foreign.isSome then "CREATE FOREIGN TABLE".toList else "CREATE TABLE") ++ " " ++
    relationText p.name.1 p.name.2 ++ " PARTITION OF " ++ relationText p.parent.1 p.parent.2 ++
    " " ++ p.bound ++ p.partitionKey.elim [] (" PARTITION BY ".toList ++ ·) ++
    p.foreign.elim [] (fun f => " ".toList ++ f.text) ++ ";"

/-- `ALTER TABLE .. ADD CONSTRAINT ..;` -/
def ownText (c : OwnConstraint) : Str :=
  "ALTER TABLE " ++ relationText p.name.1 p.name.2 ++ " ADD CONSTRAINT " ++ quotedBy '"' c.name ++
    " " ++ c.definition ++ ";"

/-- The partition with all that needs no other table. -/
def createTexts : List Str :=
  p.createText :: (columnOptionsTexts p.name.1 p.name.2 p.foreign ++
    (p.own.filter fun c => !c.isForeignKey).map p.ownText ++
    p.comments.map (catalogCommentText p.name.1 p.name.2))

/-- The foreign keys that refer to a table of `schema`. -/
def afterTexts (schema : Str) : List Str :=
  (p.own.filter fun c => c.isForeignKey && c.refSchema.all (· = schema)).map p.ownText

/-- The foreign keys that refer to a table of another schema. -/
def crossTexts (schema : Str) : List Str :=
  (p.own.filter fun c => c.isForeignKey && c.refSchema.any (· ≠ schema)).map p.ownText

end PartitionCatalog

/-- The statement of a default that waits for a sequence of a schema that `keep` chooses. -/
def CatalogColumn.defaultText (schema table : Str) (keep : Str → Bool) (c : CatalogColumn) :
    Option Str :=
  if c.after.any keep then c.column.defaultValue.map (setDefaultText schema table c.column.name)
  else none

/-- The constraint is a foreign key to a table of a schema that is not `schema`. -/
def refersAway (schema : Str) (c : PgDdlConstraint) : Bool :=
  match c.constraintType with
  | .foreignKey fk => fk.refSchema ≠ schema
  | _ => false

/-- All statements of a table: those that create it, those that wait for the tables of its schema,
and those that wait for other schemas. -/
def TableCatalog.ddl (schema table : Str) (t : TableCatalog) : TableDdl where
  create :=
    tableText schema table ⟨t.storage.partitionKey, t.foreign.map ForeignServer.text⟩
      (tableEntries table t.created t.constraints (tableConstraints t.constraints))
      t.storage.ownIndexes ++
    (columnOptionsTexts schema table t.foreign ++
      t.storage.children.flatMap PartitionCatalog.createTexts ++ t.storage.treeIndexTexts ++
      t.sequences.map (ownershipText schema table) ++
      t.comments.map (catalogCommentText schema table)).flatMap fun s => s ++ "\n".toList
  after :=
    t.columns.filterMap (CatalogColumn.defaultText schema table (· = schema)) ++
    (alterConstraints (t.constraints.filter fun c => !refersAway schema c)).map
      (alterText schema table) ++
    t.storage.children.flatMap (·.afterTexts schema)
  crossSchema :=
    t.columns.filterMap (CatalogColumn.defaultText schema table (· ≠ schema)) ++
    (t.constraints.filter (refersAway schema)).map (alterText schema table) ++
    t.storage.children.flatMap (·.crossTexts schema)

end TdExport.Postgres
