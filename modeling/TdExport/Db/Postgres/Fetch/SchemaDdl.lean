import TdExport.Db.Postgres.Fetch.Objects
import TdExport.Db.Postgres.SchemaDdl.Placement

/-!
# The objects of a PostgreSQL schema

`fetch_schema_ddl` of `db/postgres/schema_ddl.rs`, with the functions and extensions of
`db/postgres/functions.rs`: types, sequences, functions and extensions. An object whose statement
cannot be made is left out with a warning.
-/

namespace TdExport.Postgres

open Core

/-! ### Rows -/

structure EnumRow where
  oid : Cell ℤ
  name : Cell Str
  labels : Cell (List Str)

structure DomainRow where
  oid : Cell ℤ
  name : Cell Str
  baseType : Cell Str
  collation : Cell (Option Str)
  defaultValue : Cell (Option Str)
  notNull : Cell Bool
  notNullName : Cell (Option Str)
  checkNames : Cell (Option (List Str))
  checkDefs : Cell (Option (List Str))

structure CompositeRow where
  oid : Cell ℤ
  name : Cell Str
  attrNames : Cell (Option (List Str))
  attrTypes : Cell (Option (List Str))

structure RangeRow where
  oid : Cell ℤ
  name : Cell Str
  subtype : Cell Str
  collation : Cell (Option Str)
  multirangeSchema : Cell (Option Str)
  multirangeName : Cell (Option Str)

structure SequenceRow where
  name : Cell Str
  dataType : Cell Str
  seqstart : Cell ℤ
  seqincrement : Cell ℤ
  seqmin : Cell ℤ
  seqmax : Cell ℤ
  seqcache : Cell ℤ
  seqcycle : Cell Bool

structure FunctionRow where
  oid : Cell ℤ
  name : Cell Str
  definition : Cell Str
  usesTables : Cell Bool

structure ExtensionRow where
  name : Cell Str
  extSchema : Cell Str

/-- What the server answers to the queries for a schema. A dependency has the kinds and OIDs of two
objects. -/
structure PgSchemaObjects (σ : Type) where
  enums : Str → Except σ (List EnumRow)
  domains : Str → Except σ (List DomainRow)
  composites : Str → Except σ (List CompositeRow)
  ranges : Str → Except σ (List RangeRow)
  sequences : Str → Except σ (List SequenceRow)
  functions : Str → Except σ (List FunctionRow)
  dependencies : Str → Except σ (List ((ℤ × ℤ) × (ℤ × ℤ)))
  extensions : Str → Except σ (List ExtensionRow)

/-! ### Statements -/

/-- The parts of `CREATE DOMAIN`. -/
structure DomainDef where
  baseType : Str
  collation : Option Str
  defaultValue : Option Str
  notNull : Bool
  notNullName : Option Str
  checks : List (Str × Str)

/-- A name other than the default name is kept. -/
def domainNotNull (name : Str) (domain : DomainDef) : Except AppError Str :=
  if domain.notNull then
    match domain.notNullName with
    | some nn =>
      if nn = name ++ "_not_null" then pure " NOT NULL"
      else do return " CONSTRAINT " ++ (← quotePgIdentifier nn) ++ " NOT NULL"
    | none => pure " NOT NULL"
  else pure []

/-- A check, and whether it was made with `NOT VALID`. -/
def domainCheck (check : Str × Str) : Except AppError (Bool × Str) := do
  let name ← quotePgIdentifier check.1
  return (" NOT VALID".toList.isSuffixOf check.2, "CONSTRAINT " ++ name ++ " " ++ check.2)

/-- A check that is not validated is added after the domain. -/
def buildDomainDdl (schema name : Str) (domain : DomainDef) : Except AppError Str := do
  let target ← qualified schema name
  let collation : Str := (domain.collation.map (" COLLATE ".toList ++ ·)).getD []
  let default : Str := (domain.defaultValue.map (" DEFAULT ".toList ++ ·)).getD []
  let notNull ← domainNotNull name domain
  let checks ← domain.checks.mapM domainCheck
  let valid : Str := (checks.filter fun c => !c.1).flatMap fun c => " ".toList ++ c.2
  let notValid : Str := (checks.filter fun c => c.1).flatMap fun c =>
    "\nALTER DOMAIN ".toList ++ target ++ " ADD " ++ c.2 ++ ";"
  return "CREATE DOMAIN " ++ target ++ " AS " ++ domain.baseType ++ collation ++ default ++
    notNull ++ valid ++ ";" ++ notValid

def multirangeClause : Option (Str × Str) → Except AppError Str
  | some (schema, name) => do return ", MULTIRANGE_TYPE_NAME = " ++ (← qualified schema name)
  | none => pure []

def buildRangeDdl (schema name subtype : Str) (collation : Option Str)
    (multirange : Option (Str × Str)) : Except AppError Str := do
  let collation : Str := (collation.map (", COLLATION = ".toList ++ ·)).getD []
  let multirange ← multirangeClause multirange
  let target ← qualified schema name
  return "CREATE TYPE " ++ target ++ " AS RANGE (SUBTYPE = " ++ subtype ++ collation ++
    multirange ++ ");"

def buildCompositeDdl (schema name : Str) (attrs : List (Str × Str)) : Except AppError Str := do
  let attrs ← attrs.mapM fun attr => do return (← quotePgIdentifier attr.1) ++ " " ++ attr.2
  let target ← qualified schema name
  return "CREATE TYPE " ++ target ++ " AS (" ++ (", ".toList).intercalate attrs ++ ");"

structure PgSequence where
  dataType : Str
  start : ℤ
  increment : ℤ
  min : ℤ
  max : ℤ
  cache : ℤ
  cycle : Bool

def buildSequenceDdl (schema name : Str) (seq : PgSequence) : Except AppError Str := do
  let cycle : Str := if seq.cycle then " CYCLE" else []
  let target ← qualified schema name
  return "CREATE SEQUENCE " ++ target ++ " AS " ++ seq.dataType ++ " START WITH " ++
    intStr seq.start ++ " INCREMENT BY " ++ intStr seq.increment ++ " MINVALUE " ++
    intStr seq.min ++ " MAXVALUE " ++ intStr seq.max ++ " CACHE " ++ intStr seq.cache ++ cycle ++
    ";"

/-- The schema of an extension is made before it, unless it is that of the file or is always
there. -/
def buildExtensionDdl (fileSchema name extSchema : Str) : Except AppError (List Str) := do
  let quotedSchema ← quotePgIdentifier extSchema
  let quotedName ← quotePgIdentifier name
  let create : List Str :=
    if extSchema ≠ fileSchema ∧ extSchema ≠ "public".toList ∧
        !"pg_".toList.isPrefixOf extSchema then
      ["CREATE SCHEMA IF NOT EXISTS " ++ quotedSchema ++ ";"]
    else []
  return create ++ ["CREATE EXTENSION IF NOT EXISTS " ++ quotedName ++ " WITH SCHEMA " ++
    quotedSchema ++ " CASCADE;"]

/-! ### Reading -/

section Fetch

variable {σ ε α : Type} (server : PgSchemaObjects σ) (schema : Str)

/-- The label of the queries for types and sequences. -/
def objectsLabel : Str := "schema objects"

/-- An object whose statement cannot be made is left out. -/
def orSkip (w : AppError → Warning ε) (statement : Except AppError α) : Answer ε (Option α) :=
  match statement with
  | .ok statement => pure (some statement)
  | .error e => ⟨[w e], .ok none⟩

/-- A type with its OID. -/
def addType (oid : ℤ) (kind name : Str) (statement : Except AppError Str) :
    Answer ε (Option (ℤ × Str)) := do
  let statement ← orSkip (.skippedObject schema kind name) statement
  return statement.map fun statement => (oid, statement)

def readEnum (row : EnumRow) : Answer ε (Option (ℤ × Str)) := do
  let oid ← tryGetOrWarn row.oid "oid" schema objectsLabel
  let name ← tryGetOrWarn row.name "name" schema objectsLabel
  let labels ← tryGetOrWarn row.labels "labels" schema objectsLabel
  addType schema oid "enum" name (buildEnumDdl schema name labels)

def readDomain (row : DomainRow) : Answer ε (Option (ℤ × Str)) := do
  let oid ← tryGetOrWarn row.oid "oid" schema objectsLabel
  let name ← tryGetOrWarn row.name "name" schema objectsLabel
  let baseType ← tryGetOrWarn row.baseType "base_type" schema objectsLabel
  let collation ← tryGetOrWarn row.collation "collation" schema objectsLabel
  let defaultValue ← tryGetOrWarn row.defaultValue "default_value" schema objectsLabel
  let notNull ← tryGetOrWarn row.notNull "not_null" schema objectsLabel
  let notNullName ← tryGetOrWarn row.notNullName "not_null_name" schema objectsLabel
  let checkNames ← tryGetOrWarn row.checkNames "check_names" schema objectsLabel
  let checkDefs ← tryGetOrWarn row.checkDefs "check_defs" schema objectsLabel
  let checks := (checkNames.getD []).zip (checkDefs.getD [])
  addType schema oid "domain" name (buildDomainDdl schema name
    { baseType, collation, defaultValue, notNull, notNullName, checks })

def readComposite (row : CompositeRow) : Answer ε (Option (ℤ × Str)) := do
  let oid ← tryGetOrWarn row.oid "oid" schema objectsLabel
  let name ← tryGetOrWarn row.name "name" schema objectsLabel
  let names ← tryGetOrWarn row.attrNames "attr_names" schema objectsLabel
  let types ← tryGetOrWarn row.attrTypes "attr_types" schema objectsLabel
  addType schema oid "composite type" name
    (buildCompositeDdl schema name ((names.getD []).zip (types.getD [])))

def readRange (row : RangeRow) : Answer ε (Option (ℤ × Str)) := do
  let oid ← tryGetOrWarn row.oid "oid" schema objectsLabel
  let name ← tryGetOrWarn row.name "name" schema objectsLabel
  let subtype ← tryGetOrWarn row.subtype "subtype" schema objectsLabel
  let collation ← tryGetOrWarn row.collation "collation" schema objectsLabel
  let mrSchema ← tryGetOrWarn row.multirangeSchema "multirange_schema" schema objectsLabel
  let mrName ← tryGetOrWarn row.multirangeName "multirange_name" schema objectsLabel
  let multirange := mrSchema.bind fun s => mrName.map fun n => (s, n)
  addType schema oid "range type" name (buildRangeDdl schema name subtype collation multirange)

def readSequence (row : SequenceRow) : Answer ε (Option Str) := do
  let name ← tryGetOrWarn row.name "name" schema objectsLabel
  let dataType ← tryGetOrWarn row.dataType "data_type" schema objectsLabel
  let start ← tryGetOrWarn row.seqstart "seqstart" schema objectsLabel
  let increment ← tryGetOrWarn row.seqincrement "seqincrement" schema objectsLabel
  let min ← tryGetOrWarn row.seqmin "seqmin" schema objectsLabel
  let max ← tryGetOrWarn row.seqmax "seqmax" schema objectsLabel
  let cache ← tryGetOrWarn row.seqcache "seqcache" schema objectsLabel
  let cycle ← tryGetOrWarn row.seqcycle "seqcycle" schema objectsLabel
  orSkip (.skippedObject schema "sequence" name)
    (buildSequenceDdl schema name { dataType, start, increment, min, max, cache, cycle })

/-- A function whose name is dangerous is left out, though its definition is not changed. -/
def readFunction (row : FunctionRow) : Answer ε (Option PgFunction) := do
  let oid ← tryGetOrWarn row.oid "oid" schema "functions"
  let name ← tryGetOrWarn row.name "name" schema "functions"
  let definition ← tryGetOrWarn row.definition "definition" schema "functions"
  let usesTables ← tryGetOrWarn row.usesTables "uses_tables" schema "functions"
  let valid ← orSkip (.skippedObject schema "function" name) (validateIdentifier name)
  return valid.map fun _ => { oid, name, definition, usesTables }

def readExtension (row : ExtensionRow) : Answer ε (Option (List Str)) := do
  let name ← tryGetOrWarn row.name "name" schema "extensions"
  let extSchema ← tryGetOrWarn row.extSchema "ext_schema" schema "extensions"
  orSkip (.skippedExtension schema name) (buildExtensionDdl schema name extSchema)

/-- All rows of a query that can be used. -/
def fetchRows {ρ : Type} (label : Str) (answer : Except σ (List ρ))
    (read : ρ → Answer (PgError σ) (Option α)) : Answer (PgError σ) (List α) := do
  let rows ← query schema label answer
  let read ← rows.mapM read
  return read.filterMap id

def objectKey (k : ℤ × ℤ) : ObjectKey := ⟨if k.1 = 1 then .function else .type, k.2⟩

/-- Without the dependencies the objects are in the order of their OIDs. -/
def fetchDependencies : Answer (PgError σ) Deps :=
  match server.dependencies schema with
  | .ok rows => pure (rows.map fun e => (objectKey e.1, objectKey e.2))
  | .error _ => ⟨[.creationOrder schema], .ok []⟩

def fetchSchemaDdl : Answer (PgError σ) SchemaDdl := do
  let enums ← fetchRows schema objectsLabel (server.enums schema) (readEnum schema)
  let domains ← fetchRows schema objectsLabel (server.domains schema) (readDomain schema)
  let composites ←
    fetchRows schema objectsLabel (server.composites schema) (readComposite schema)
  let ranges ← fetchRows schema objectsLabel (server.ranges schema) (readRange schema)
  let sequences ← fetchRows schema objectsLabel (server.sequences schema) (readSequence schema)
  let functions ← fetchRows schema "functions" (server.functions schema) (readFunction schema)
  let deps ← fetchDependencies server schema
  -- Both loops end, so there is always an order.
  let (before, afterTables) :=
    (orderTypesAndFunctions (enums ++ domains ++ composites ++ ranges) functions deps).getD ([], [])
  let extensions ← fetchRows schema "extensions" (server.extensions schema) (readExtension schema)
  return { before := extensions.flatten ++ sequences ++ before, afterTables }

end Fetch

end TdExport.Postgres
