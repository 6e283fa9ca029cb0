import TdExport.Db.Postgres.Ddl.Basic
import TdExport.Db.Postgres.FreeText
import TdExport.Export.Sql.Terminator

/-!
# The statements of a view

`db/postgres/ddl.rs`: the statements that create views and materialized views, and what the
terminator of `export/sql.rs` makes of them and of the statement of a table.
-/

namespace TdExport.Postgres

open Core Sql

/-! ### The options -/

/-- The text without the occurrences of `pat` at its start; each turn takes one. -/
def trimStartMatchesFrom (pat : Str) : ℕ → Str → Str
  | 0, s => s
  | n + 1, s =>
    match stripPrefix pat s with
    | some rest => trimStartMatchesFrom pat n rest
    | none => s

/-- `trim_start_matches` for a pattern that is not empty. -/
def trimStartMatches (pat s : Str) : Str := trimStartMatchesFrom pat s.length s

/-- One entry of `WITH (..)`: a value with other characters than these becomes a literal. -/
def withOption (option : Str) : Str :=
  match splitOnce "=" option with
  | some (key, value) =>
    if value.all fun c => c.isAlphanum || ['_', '.', '-'].contains c then key ++ "=" ++ value
    else key ++ "=" ++ quoteLiteral value
  | none => option

def withOptions (options : List Str) : Str :=
  if options = [] then []
  else " WITH (" ++ (", ".toList).intercalate (options.map withOption) ++ ")"

def isCheckOption (option : Str) : Bool := "check_option=".toList.isPrefixOf option

/-- The clause of the first check option. -/
def checkOption (reloptions : List Str) : Str :=
  match (reloptions.find? isCheckOption).map (trimStartMatches "check_option=") with
  | some level =>
    if level = "local".toList then "\nWITH LOCAL CHECK OPTION"
    else "\nWITH CASCADED CHECK OPTION"
  | none => []

/-! ### The statements -/

/-- The query of the catalog, without the semicolons at its end. -/
def definitionBody (definition : Str) : Str := trimEndMatches [';'] (trimEnd definition)

def buildPgMaterializedViewDdl (schema view definition : Str) (reloptions : List Str) :
    Except AppError Str := do
  let relation ← qualified schema view
  return "CREATE MATERIALIZED VIEW " ++ relation ++ withOptions reloptions ++ " AS\n" ++
    definitionBody definition ++ "\nWITH NO DATA;\n"

def buildPgViewDdl (schema view definition : Str) (reloptions : List Str) :
    Except AppError Str := do
  let relation ← qualified schema view
  return "CREATE VIEW " ++ relation ++
    withOptions (reloptions.filter fun option => !isCheckOption option) ++ " AS\n" ++
    definitionBody definition ++ checkOption reloptions ++ ";\n"

/-! ### Their ends -/

variable {schema view table definition text : Str} {reloptions indexDefs : List Str}

/-- What stands before the last semicolon of a view. -/
def viewEnd (definition : Str) (reloptions : List Str) : Str :=
  definitionBody definition ++ checkOption reloptions

/-- What stands before the last semicolon of a table: its last index, or the end of the table. -/
def tableEnd (indexDefs : List Str) (options : TableOptions) : Str :=
  match indexDefs.getLast?, options.foreign, options.partitionKey with
  | some indexDef, _, _ => indexDef
  | none, some foreign, _ => foreign
  | none, none, some key => key
  | none, none, none => ")"

lemma lineEnds_of_eq_ok_view (h : buildPgViewDdl schema view definition reloptions = .ok text) :
    LineEnds (viewEnd definition reloptions) text := by
  obtain ⟨relation, -, h⟩ := bind_eq_ok.mp h
  cases h
  refine ⟨"CREATE VIEW " ++ relation ++
    withOptions (reloptions.filter fun option => !isCheckOption option) ++ " AS", '\n', rfl, ?_⟩
  simp [viewEnd]

lemma lineEnds_of_eq_ok_materializedView
    (h : buildPgMaterializedViewDdl schema view definition reloptions = .ok text) :
    LineEnds "WITH NO DATA" text := by
  obtain ⟨relation, -, h⟩ := bind_eq_ok.mp h
  cases h
  refine ⟨"CREATE MATERIALIZED VIEW " ++ relation ++ withOptions reloptions ++ " AS\n" ++
    definitionBody definition, '\n', rfl, ?_⟩
  simp

lemma lineEnds_tableSuffix (pre : Str) (options : TableOptions) :
    LineEnds (tableEnd [] options) (pre ++ tableSuffix options) := by
  obtain ⟨partitionKey, foreign⟩ := options
  cases foreign with
  | some foreign => exact ⟨pre ++ "\n)", ' ', rfl, by simp [tableEnd, tableSuffix]⟩
  | none =>
    cases partitionKey with
    | some key => exact ⟨pre ++ "\n) PARTITION BY", ' ', rfl, by simp [tableEnd, tableSuffix]⟩
    | none => exact ⟨pre, '\n', rfl, by simp [tableEnd, tableSuffix]⟩

lemma lineEnds_indexStatements (pre : Str) (indexDefs : List Str) (options : TableOptions) :
    LineEnds (tableEnd indexDefs options)
      (pre ++ tableSuffix options ++ indexStatements indexDefs) := by
  induction indexDefs using List.reverseRecOn with
  | nil =>
    rw [indexStatements, List.flatMap_nil, List.append_nil]
    exact lineEnds_tableSuffix pre options
  | append_singleton indexDefs indexDef ih =>
    have h := ih.append_line indexDef
    simpa [indexStatements, tableEnd] using h

lemma lineEnds_of_eq_ok_table {columns : List PgDdlColumn} {constraints : List PgDdlConstraint}
    {options : TableOptions}
    (h : buildTableDdl schema table columns constraints indexDefs options = .ok text) :
    LineEnds (tableEnd indexDefs options) text := by
  obtain ⟨head, -, h⟩ := bind_eq_ok.mp h
  obtain ⟨columnEntries, -, h⟩ := bind_eq_ok.mp h
  obtain ⟨constraintEntries, -, h⟩ := bind_eq_ok.mp h
  cases h
  exact lineEnds_indexStatements _ indexDefs options

/-- The query of a view has no semicolon at its end. -/
lemma not_suffix_definitionBody (definition : Str) :
    ¬ ";".toList <:+ definitionBody definition :=
  not_suffix_rdropWhile rfl (trimEnd definition)

lemma checkOption_cases (reloptions : List Str) :
    checkOption reloptions = [] ∨ ∃ r, checkOption reloptions = r ++ ['N'] := by
  unfold checkOption
  cases (reloptions.find? isCheckOption).map (trimStartMatches "check_option=") with
  | none => exact .inl rfl
  | some level =>
    by_cases hlevel : level = "local".toList
    · exact .inr ⟨"\nWITH LOCAL CHECK OPTIO", if_pos hlevel⟩
    · exact .inr ⟨"\nWITH CASCADED CHECK OPTIO", if_neg hlevel⟩

lemma not_suffix_viewEnd (definition : Str) (reloptions : List Str) :
    ¬ ";".toList <:+ viewEnd definition reloptions := by
  rcases checkOption_cases reloptions with h | ⟨r, h⟩
  · rw [viewEnd, h, List.append_nil]
    exact not_suffix_definitionBody definition
  · rw [viewEnd, h, ← List.append_assoc]
    intro hend
    exact absurd (List.singleton_suffix_append_singleton_iff.mp hend) (by decide)

/-! ### One semicolon -/

lemma applySqlTerminator_eq (ddl : Str) (db : DbType) :
    applySqlTerminator ddl db = terminate ddl := by
  cases db <;> rfl

/-- A statement is terminated once unless it ends in more than one semicolon; the result is what
counts of the statement and a semicolon when the statement has at most one semicolon, directly
behind what counts. A terminated statement stays as it is.

The statements of views and of materialized views are terminated once, and so is that of a table
whose end has no semicolon of its own. -/
theorem applySqlTerminator_once_iff (db : DbType) :
    (∀ ddl, (TerminatedOnce ddl (applySqlTerminator ddl db) ↔ ¬ ";;".toList <:+ trimEnd ddl) ∧
      (applySqlTerminator ddl db = withoutTail ddl ++ ";" ↔ OneSemicolon ddl) ∧
      applySqlTerminator (applySqlTerminator ddl db) db = applySqlTerminator ddl db) ∧
    (∀ schema view definition reloptions text,
      buildPgViewDdl schema view definition reloptions = .ok text →
        TerminatedOnce text (applySqlTerminator text db) ∧
        (applySqlTerminator text db = withoutTail text ++ ";" ↔
          EndsBlack (viewEnd definition reloptions))) ∧
    (∀ schema view definition reloptions text,
      buildPgMaterializedViewDdl schema view definition reloptions = .ok text →
        TerminatedOnce text (applySqlTerminator text db) ∧
        applySqlTerminator text db = withoutTail text ++ ";") ∧
    ∀ schema table columns constraints indexDefs options text,
      buildTableDdl schema table columns constraints indexDefs options = .ok text →
        (TerminatedOnce text (applySqlTerminator text db) ↔
          ¬ ";".toList <:+ tableEnd indexDefs options) ∧
        (applySqlTerminator text db = withoutTail text ++ ";" ↔
          EndsBlack (tableEnd indexDefs options)) := by
  simp only [applySqlTerminator_eq]
  refine ⟨fun ddl => ⟨?_, ?_, ?_⟩, fun _ _ _ _ _ h => ?_, fun _ _ _ _ _ h => ?_,
    fun _ _ _ _ _ _ _ h => ?_⟩
  · exact terminatedOnce_terminate_iff ddl
  · exact terminate_eq_withoutTail_iff ddl
  · exact terminate_terminate ddl
  · have hend := lineEnds_of_eq_ok_view h
    exact ⟨hend.terminatedOnce_iff.mpr (not_suffix_viewEnd _ _), hend.terminate_eq_iff⟩
  · have hend := lineEnds_of_eq_ok_materializedView h
    exact ⟨hend.terminatedOnce_iff.mpr (by decide),
      hend.terminate_eq_iff.mpr ⟨'A', by decide, by decide⟩⟩
  · have hend := lineEnds_of_eq_ok_table h
    exact ⟨hend.terminatedOnce_iff, hend.terminate_eq_iff⟩

/-- A view whose query ends in two semicolons. -/
theorem applySqlTerminator_once_iff_view :
    TerminatedOnce "CREATE VIEW \"s\".\"v\" AS\n SELECT 1;\n"
      (applySqlTerminator "CREATE VIEW \"s\".\"v\" AS\n SELECT 1;\n" .postgres) :=
  ((applySqlTerminator_once_iff .postgres).2.1 "s" "v" " SELECT 1;;" [] _ rfl).1

/-- Two semicolons stay two. -/
theorem applySqlTerminator_not_once :
    ¬ ∀ ddl db, TerminatedOnce ddl (applySqlTerminator ddl db) := by
  intro h
  have hend := (terminatedOnce_terminate_iff "SELECT 1;;").mp (h "SELECT 1;;" .postgres)
  exact hend (by decide)

end TdExport.Postgres
