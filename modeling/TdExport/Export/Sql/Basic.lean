import TdExport.Core.Loop
import TdExport.Identifier

/-!
# The SQL file of a schema

`export/sql.rs`. The file is the text that `write_sql` writes when no write fails.
-/

namespace TdExport

open Core

namespace Sql

/-- `Terminator::apply`: the statement with a semicolon at its end. -/
def terminate (ddl : Str) : Str :=
  let trimmed := trimEnd ddl
  if ";".toList <:+ trimmed ∨ ");".toList <:+ trimmed then trimmed else trimmed ++ ";"

/-- A name made safe for a block comment. -/
def commentText (name : Str) : Str :=
  replaceChars (fun c => if c = '\n' ∨ c = '\r' then [' '] else [c])
    (replaceStr "*/" "* /" (replaceStr "/*" "/ *" name))

def quoteTableName (dbType : DbType) (tableName : Str) : Except AppError Str :=
  match dbType with
  | .mySql => quoteIdentifier tableName
  | .postgres => quotePgIdentifier tableName

/-! ### References between views -/

/-- The loop of `without_string_literals`; `quote` is the quotation mark that is open. -/
def blankLiterals (identQuote : Char) (backslash : Bool) : Option Char → Str → Str
  | _, [] => []
  | none, c :: s =>
    c :: blankLiterals identQuote backslash (if c = '\'' ∨ c = identQuote then some c else none) s
  | some q, c :: s =>
    if q = '\'' then
      if c = '\\' ∧ backslash then
        match s with
        | [] => [' ']
        | _ :: s => ' ' :: ' ' :: blankLiterals identQuote backslash (some q) s
      else if c = '\'' then c :: blankLiterals identQuote backslash none s
      else ' ' :: blankLiterals identQuote backslash (some q) s
    else c :: blankLiterals identQuote backslash (if c = q then none else some q) s

/-- The definition with the insides of its string literals blanked out. -/
def withoutStringLiterals (ddl : Str) (dbType : DbType) : Str :=
  match dbType with
  | .mySql => blankLiterals '`' true none ddl
  | .postgres => blankLiterals '"' false none ddl

/-- The spellings under which a definition refers to the view `name` of `schema`. -/
def viewNeedles (schema name : Str) : DbType → List Str
  | .mySql =>
    let quoted (s : Str) : Str := "`" ++ doubleQuotes '`' s ++ "`"
    [quoted schema ++ "." ++ quoted name, quoted name]
  | .postgres =>
    let quoted (s : Str) : Str := "\"" ++ doubleQuotes '"' s ++ "\""
    [schema, quoted schema].flatMap fun s => [s ++ "." ++ name, s ++ "." ++ quoted name]

variable (u : Unicode)

def isIdentChar (c : Char) : Bool := u.isAlphanumeric c || c == '_' || c == '$'

/-- A reference stands alone between `before` and `after`, and is no alias. -/
def isReferenceBetween (before after : Str) : Bool :=
  !before.getLast?.any (fun c => isIdentChar u c || "\"`.=@".toList.contains c) &&
    !after.head?.any (fun c => isIdentChar u c || c == '`') &&
    !" AS ".toList.isSuffixOf before

/-- `ddl` refers to the view `name` of `schema`. -/
def referencesView (ddl schema name : Str) (dbType : DbType) : Bool :=
  (viewNeedles schema name dbType).any fun needle =>
    (matchIndices needle ddl).any fun p => isReferenceBetween u p.1 p.2

/-- The definition of `view` refers to the other view `other`. -/
def dependsOnView (schema : Str) (dbType : DbType) (view other : TableDef) : Bool :=
  other.tableName != view.tableName &&
    referencesView u (withoutStringLiterals (view.ddl.getD []) dbType) schema other.tableName dbType

/-! ### The order of the views -/

/-- For each view, the positions of the views it refers to. -/
def viewDeps (schema : Str) (views : List TableDef) (dbType : DbType) : List (List ℕ) :=
  views.map fun view =>
    (views.zipIdx.filter fun p => dependsOnView u schema dbType view p.1).map Prod.snd

/-- The state of the loop of `order_views`. -/
structure ViewOrder where
  done : List Bool
  ordered : List TableDef

def ViewOrder.isDone (s : ViewOrder) (i : ℕ) : Bool := s.done.getD i false

/-- The next view: the first that is ready, else the first that is left. -/
def nextView (n : ℕ) (deps : List (List ℕ)) (s : ViewOrder) : ℕ :=
  let ready := (List.range n).find? fun i => !s.isDone i && (deps.getD i []).all s.isDone
  ready.getD (((List.range n).find? fun i => !s.isDone i).getD 0)

/-- One turn of the loop. -/
def orderViewsStep (views : List TableDef) (deps : List (List ℕ)) (s : ViewOrder) :
    Option ViewOrder :=
  if s.ordered.length < views.length then
    let next := nextView views.length deps s
    views[next]?.map fun view => ⟨s.done.set next true, s.ordered ++ [view]⟩
  else none

/-- Views in the order of their references; `none` if the loop did not end. -/
def orderViews (schema : Str) (views : List TableDef) (dbType : DbType) :
    Option (List TableDef) :=
  (Loop.run (orderViewsStep views (viewDeps u schema views dbType)) views.length
    ⟨List.replicate views.length false, []⟩).map ViewOrder.ordered

/-! ### The file -/

/-- A heading with its statements; nothing when there is no statement. -/
def writeSection (label : Str) (statements : List Str) : Str :=
  if statements = [] then []
  else writeln label ++ statements.flatMap writeln ++ writeln []

/-- The comment and the definition of a relation. -/
def relationBlock (t : TableDef) : Str :=
  writeln ("/* Table : " ++ commentText t.tableName ++ " */") ++
    (match t.ddl with
      | some ddl => writeln (terminate ddl ++ "\n\n")
      | none => writeln "/* DDL 조회 실패 — 실행 로그의 경고를 확인하세요 */\n\n")

/-- The text written so far, and the statements that wait for the end of the file. -/
structure SqlFile where
  text : Str := []
  deferred : List Str := []

/-- A relation with an unsafe name is left out. -/
def writeRelation (dbType : DbType) (file : SqlFile) (t : TableDef) : SqlFile :=
  match quoteTableName dbType t.tableName with
  | .error _ => file
  | .ok _ => ⟨file.text ++ relationBlock t, file.deferred ++ t.ddlAfter⟩

/-- The comment and the session settings at the head of the file. -/
def writeHeader (schema : Str) (dbType : DbType) : Str :=
  writeln ("/* Database : " ++ commentText schema ++ " */") ++
    match dbType with
    | .postgres =>
      writeln ("SET client_encoding = 'UTF8';\nSET standard_conforming_strings = on;\n" ++
          "SET search_path = '';\nSET check_function_bodies = false;") ++
        (match quotePgIdentifier schema with
          | .ok quoted => writeln ("CREATE SCHEMA IF NOT EXISTS " ++ quoted ++ ";\n")
          | .error _ => writeln [])
    | .mySql =>
      writeln ("SET NAMES utf8mb4;\n" ++
        "SET @OLD_FOREIGN_KEY_CHECKS = @@FOREIGN_KEY_CHECKS, FOREIGN_KEY_CHECKS = 0;\n" ++
        "SET @OLD_SQL_MODE = @@SQL_MODE, SQL_MODE = 'NO_AUTO_VALUE_ON_ZERO';\n")

def beforeLabel : DbType → Str
  | .postgres => "/* Extensions, Types, Sequences & Functions */"
  | .mySql => "/* Routines */"

/-- The restored session settings at the end of the file. -/
def writeRestore : DbType → Str
  | .mySql => writeln "SET FOREIGN_KEY_CHECKS = @OLD_FOREIGN_KEY_CHECKS;" ++
      writeln "SET SQL_MODE = @OLD_SQL_MODE;"
  | .postgres => []

def writeSql (schema : Str) (objects : SchemaDdl) (tables : List TableDef) (dbType : DbType) :
    Option Str := do
  let head := writeHeader schema dbType ++ writeSection (beforeLabel dbType) objects.before
  let file : SqlFile := { text := head }
  let file := (tables.filter fun t => !t.general.isView).foldl (writeRelation dbType) file
  let functions := writeSection "/* Functions using table row types */" objects.afterTables
  let file := { file with text := file.text ++ functions }
  let views ← orderViews u schema (tables.filter fun t => t.general.isView) dbType
  let file := views.foldl (writeRelation dbType) file
  return file.text ++ writeSection "/* Foreign Keys */" file.deferred ++ writeRestore dbType

end Sql

end TdExport
