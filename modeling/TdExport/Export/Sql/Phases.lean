import TdExport.Export.Sql.Terminator
import TdExport.Export.Sql.Views

/-!
# The phases of the SQL file

What `write_sql` writes for a schema, phase by phase: every relation with a safe name has its
block and its deferred statements in the file exactly once, and nothing of another relation is
there.
-/

namespace TdExport.Sql

open Core

variable {dbType : DbType}

/-- The name of a relation that is written. -/
def nameIsSafe (dbType : DbType) (t : TableDef) : Bool :=
  (quoteTableName dbType t.tableName).isOk

lemma writeRelation_of_safe {t : TableDef} (h : nameIsSafe dbType t = true) (file : SqlFile) :
    writeRelation dbType file t =
      ⟨file.text ++ relationBlock t, file.deferred ++ t.ddlAfter⟩ := by
  rw [nameIsSafe] at h
  cases hq : quoteTableName dbType t.tableName with
  | error e => simp [hq, Except.isOk, Except.toBool] at h
  | ok q => simp [writeRelation, hq]

lemma writeRelation_of_rejected {t : TableDef} (h : nameIsSafe dbType t = false) (file : SqlFile) :
    writeRelation dbType file t = file := by
  rw [nameIsSafe] at h
  cases hq : quoteTableName dbType t.tableName with
  | error e => simp [writeRelation, hq]
  | ok q => simp [hq, Except.isOk, Except.toBool] at h

/-- Writing a list of relations adds the blocks and the deferred statements of the safe ones. -/
lemma foldl_writeRelation (tables : List TableDef) (file : SqlFile) :
    tables.foldl (writeRelation dbType) file =
      ⟨file.text ++ (tables.filter (nameIsSafe dbType)).flatMap relationBlock,
        file.deferred ++ (tables.filter (nameIsSafe dbType)).flatMap TableDef.ddlAfter⟩ := by
  induction tables generalizing file with
  | nil => simp
  | cons t tables ih =>
    rw [List.foldl_cons, ih]
    by_cases h : nameIsSafe dbType t = true
    · rw [writeRelation_of_safe h, List.filter_cons_of_pos h]
      simp
    · rw [writeRelation_of_rejected (by simpa using h), List.filter_cons_of_neg h]

/-- The relations of the first pass, in the order of their blocks. -/
def writtenTables (dbType : DbType) (tables : List TableDef) : List TableDef :=
  tables.filter fun t => !t.general.isView && nameIsSafe dbType t

lemma filter_nameIsSafe (dbType : DbType) (tables : List TableDef) :
    (tables.filter fun t => !t.general.isView).filter (nameIsSafe dbType) =
      writtenTables dbType tables := by
  rw [List.filter_filter, writtenTables]
  congr 1
  funext t
  exact Bool.and_comm _ _

/-! ### The lines of the file

What is asked of the file is said in its own words, line by line. -/

/-- The text of `lines`, each with its line end. -/
def linesText (lines : List Str) : Str := lines.flatMap writeln

lemma linesText_append (lines lines' : List Str) :
    linesText (lines ++ lines') = linesText lines ++ linesText lines' := List.flatMap_append

lemma linesText_flatMap {α : Type*} (f : α → List Str) (l : List α) :
    linesText (l.flatMap f) = l.flatMap fun x => linesText (f x) := List.flatMap_assoc

/-- The head of a file: what it is of, and the settings under which it is to be read. -/
def headLines (schema : Str) : DbType → List Str
  | .postgres =>
    ["/* Database : " ++ commentText schema ++ " */",
      "SET client_encoding = 'UTF8';",
      "SET standard_conforming_strings = on;",
      "SET search_path = '';",
      "SET check_function_bodies = false;"] ++
      ((if (quotePgIdentifier schema).isOk then
          ["CREATE SCHEMA IF NOT EXISTS \"" ++ doubled '"' schema ++ "\";"]
        else []) ++ [[]])
  | .mySql =>
    ["/* Database : " ++ commentText schema ++ " */",
      "SET NAMES utf8mb4;",
      "SET @OLD_FOREIGN_KEY_CHECKS = @@FOREIGN_KEY_CHECKS, FOREIGN_KEY_CHECKS = 0;",
      "SET @OLD_SQL_MODE = @@SQL_MODE, SQL_MODE = 'NO_AUTO_VALUE_ON_ZERO';",
      []]

/-- A heading, the statements under it and an empty line; nothing when there is no statement. -/
def sectionLines (heading : Str) : List Str → List Str
  | [] => []
  | statement :: statements => heading :: statement :: statements ++ [[]]

/-- The heading over the objects that come before the tables. -/
def objectsHeading : DbType → Str
  | .postgres => "/* Extensions, Types, Sequences & Functions */"
  | .mySql => "/* Routines */"

/-- A definition with white space at its end dropped, and a semicolon there. -/
def closedStatement (ddl : Str) : Str :=
  if (trimEnd ddl).getLast? = some ';' then trimEnd ddl else trimEnd ddl ++ ";"

/-- The block of a relation: its name, and its definition or the mark of one that failed. -/
def blockLines (t : TableDef) : List Str :=
  ["/* Table : " ++ commentText t.tableName ++ " */",
    match t.ddl with
    | some ddl => closedStatement ddl
    | none => "/* DDL 조회 실패 — 실행 로그의 경고를 확인하세요 */",
    [],
    []]

/-- The settings given back at the end. -/
def restoreLines : DbType → List Str
  | .postgres => []
  | .mySql =>
    ["SET FOREIGN_KEY_CHECKS = @OLD_FOREIGN_KEY_CHECKS;", "SET SQL_MODE = @OLD_SQL_MODE;"]

/-- The schema is made when its name can be quoted. -/
lemma createSchema_eq (schema : Str) :
    (match quotePgIdentifier schema with
      | .ok quoted => writeln ("CREATE SCHEMA IF NOT EXISTS " ++ quoted ++ ";\n")
      | .error _ => writeln []) =
    linesText ((if (quotePgIdentifier schema).isOk then
        ["CREATE SCHEMA IF NOT EXISTS \"" ++ doubled '"' schema ++ "\";"]
      else []) ++ [[]]) := by
  cases hquoted : quotePgIdentifier schema with
  | error e => rfl
  | ok quoted =>
    rw [quotePgIdentifier_eq_ok hquoted]
    simp [linesText, writeln, quotedBy, Except.isOk, Except.toBool]

lemma writeHeader_eq (schema : Str) (dbType : DbType) :
    writeHeader schema dbType = linesText (headLines schema dbType) := by
  cases dbType with
  | mySql =>
    refine congrArg (writeln ("/* Database : " ++ commentText schema ++ " */") ++ ·) ?_
    change writeln _ = _
    decide +kernel
  | postgres =>
    refine congrArg (writeln ("/* Database : " ++ commentText schema ++ " */") ++ ·) ?_
    have hsettings :
        writeln ("SET client_encoding = 'UTF8';\nSET standard_conforming_strings = on;\n" ++
          "SET search_path = '';\nSET check_function_bodies = false;") =
        linesText ["SET client_encoding = 'UTF8';", "SET standard_conforming_strings = on;",
          "SET search_path = '';", "SET check_function_bodies = false;"] := by
      decide +kernel
    exact (congrArg₂ (· ++ ·) hsettings (createSchema_eq schema)).trans (linesText_append _ _).symm

lemma beforeLabel_eq (dbType : DbType) : beforeLabel dbType = objectsHeading dbType := by
  cases dbType <;> rfl

lemma writeSection_eq (label : Str) (statements : List Str) :
    writeSection label statements = linesText (sectionLines label statements) := by
  cases statements with
  | nil => rfl
  | cons statement statements =>
    simp [writeSection, sectionLines, linesText]

lemma terminate_eq_closedStatement (ddl : Str) : terminate ddl = closedStatement ddl := by
  have hlast : ";".toList <:+ trimEnd ddl ↔ (trimEnd ddl).getLast? = some ';' := by
    rw [List.getLast?_eq_some_iff]
    exact exists_congr fun body => eq_comm
  rw [terminate_eq, closedStatement, if_congr hlast rfl rfl]

lemma relationBlock_eq_lines (t : TableDef) : relationBlock t = linesText (blockLines t) := by
  rw [relationBlock, blockLines]
  cases t.ddl with
  | none =>
    refine congrArg (writeln ("/* Table : " ++ commentText t.tableName ++ " */") ++ ·) ?_
    change writeln _ = _
    decide +kernel
  | some ddl => simp [terminate_eq_closedStatement, linesText, writeln]

lemma writeRestore_eq (dbType : DbType) :
    writeRestore dbType = linesText (restoreLines dbType) := by
  cases dbType <;> rfl

/-- The file of a schema: the head, the objects before the tables, the tables, the functions
behind them, the views, the statements that waited for all relations written, and the settings
given back. -/
theorem writeSql_phases (u : Unicode) (schema : Str) (objects : SchemaDdl)
    (tables : List TableDef) (dbType : DbType) :
    ∃ views, views.Perm (tables.filter fun t => t.general.isView && nameIsSafe dbType t) ∧
      writeSql u schema objects tables dbType = some (linesText (
        headLines schema dbType ++
        sectionLines (objectsHeading dbType) objects.before ++
        (writtenTables dbType tables).flatMap blockLines ++
        sectionLines "/* Functions using table row types */" objects.afterTables ++
        views.flatMap blockLines ++
        sectionLines "/* Foreign Keys */"
          ((writtenTables dbType tables ++ views).flatMap TableDef.ddlAfter) ++
        restoreLines dbType)) := by
  obtain ⟨result, hresult, hperm⟩ :=
    orderViews_perm u schema (tables.filter fun t => t.general.isView) dbType
  refine ⟨result.filter (nameIsSafe dbType), ?_, ?_⟩
  · have hfilter := hperm.filter (nameIsSafe dbType)
    rw [List.filter_filter] at hfilter
    simpa only [Bool.and_comm] using hfilter
  · simp only [writeSql, hresult, foldl_writeRelation, filter_nameIsSafe, Option.bind_eq_bind,
      Option.bind_some, Option.pure_def, List.nil_append, List.flatMap_append, List.append_assoc,
      linesText_append, linesText_flatMap, writeHeader_eq, writeSection_eq, writeRestore_eq,
      beforeLabel_eq, funext relationBlock_eq_lines]

end TdExport.Sql
