import TdExport.Db.Client

/-!
# The metadata of a table

`enrich_table` of `run.rs`: the queries for one table, which runs as a task beside those of other
tables. The first query that fails ends the task, with a warning and what was fetched before.
-/

namespace TdExport

open Core

/-- The queries for one table. -/
inductive Query where
  | columns
  | indexes
  | constraints
  | viewInfo
  | tableDdl
  deriving DecidableEq, Repr

/-- What a task does that is seen outside of it. -/
inductive Action (ε : Type) where
  | query (schema table : Str) (query : Query)
  | warn (w : Warning ε)
  deriving DecidableEq, Repr

variable {ε : Type}

def Action.warning? : Action ε → Option (Warning ε)
  | .query .. => none
  | .warn w => some w

/-- The warnings of a task, in order. -/
def warningsOf (actions : List (Action ε)) : List (Warning ε) := actions.filterMap Action.warning?

@[simp] lemma warningsOf_nil : warningsOf ([] : List (Action ε)) = [] := rfl

@[simp] lemma warningsOf_append (as bs : List (Action ε)) :
    warningsOf (as ++ bs) = warningsOf as ++ warningsOf bs :=
  List.filterMap_append

@[simp] lemma warningsOf_query (schema table : Str) (query : Query) (as : List (Action ε)) :
    warningsOf (.query schema table query :: as) = warningsOf as := rfl

@[simp] lemma warningsOf_warn (w : Warning ε) (as : List (Action ε)) :
    warningsOf (.warn w :: as) = w :: warningsOf as := rfl

@[simp] lemma warningsOf_map_warn (ws : List (Warning ε)) :
    warningsOf (ws.map Action.warn) = ws := by
  induction ws with
  | nil => rfl
  | cons w ws ih => rw [List.map_cons, warningsOf_warn, ih]

/-! ### The task of a table -/

/-- A task: its actions in order, and its result. -/
structure Task (ε α : Type) where
  actions : List (Action ε)
  result : α

/-- The task, with actions that come first. -/
def Task.after {α : Type} (t : Task ε α) (actions : List (Action ε)) : Task ε α :=
  ⟨actions ++ t.actions, t.result⟩

@[simp] lemma Task.actions_after {α : Type} (t : Task ε α) (actions : List (Action ε)) :
    (t.after actions).actions = actions ++ t.actions := rfl

/-- Make one query and go on with the table that has its answer. -/
def fetch {α : Type} (schema : Str) (table : TableDef) (query : Query) (answer : Answer ε α)
    (store : α → TableDef) (next : TableDef → Task ε TableDef) :
    Task ε TableDef :=
  let asked := .query schema table.tableName query :: answer.warnings.map .warn
  match answer.result with
  | .ok value => (next (store value)).after asked
  | .error e => ⟨asked ++ [.warn (.metadata schema table.tableName e)], table⟩

section Enrich

variable (db : DbClient ε) (schema : Str) (format : OutputFormat) (table : TableDef)

def enrichTableInner : Task ε TableDef :=
  match format with
  | .excel | .markdown =>
    if table.general.isTable then
      fetch schema table .columns (db.getColumns schema table.tableName)
        (fun cols => { table with columns := cols }) fun table =>
      fetch schema table .indexes (db.getIndexes schema table.tableName)
        (fun idxs => { table with indexes := idxs }) fun table =>
      fetch schema table .constraints (db.getConstraints schema table.tableName)
        (fun cons => { table with constraints := cons }) fun table => ⟨[], table⟩
    else if table.general.isView then
      fetch schema table .viewInfo (db.getViewInfo schema table.tableName)
        (fun view => { table with view := some view }) fun table => ⟨[], table⟩
    else ⟨[], table⟩
  | .sql =>
    fetch schema table .tableDdl (db.getTableDdl schema table.tableName)
      (fun ddl => { table with
        ddl := some ddl.create, ddlAfter := ddl.after, ddlCrossSchema := ddl.crossSchema })
      fun table => ⟨[], table⟩

/-- `slow` tells whether the queries for the table took a second or more. -/
def enrichTable (slow : Bool) : Task ε TableDef :=
  let task := enrichTableInner db schema format table
  if slow then ⟨task.actions ++ [.warn (.slowExtract schema task.result.tableName)], task.result⟩
  else task

/-- The table with what was fetched for it. -/
abbrev enriched : TableDef := (enrichTableInner db schema format table).result

end Enrich

/-! ### What a task gives -/

section Fetch

variable {α : Type} {schema : Str} {table : TableDef} {query : Query} {answer : Answer ε α}
  {store : α → TableDef} {next : TableDef → Task ε TableDef}

/-- What all answers to the query lead to holds of the result. -/
lemma result_fetch_of {p : TableDef → Prop} (hstop : p table)
    (hnext : ∀ value, p (next (store value)).result) :
    p (fetch schema table query answer store next).result := by
  rw [fetch]
  cases answer.result with
  | error e => exact hstop
  | ok value => exact hnext value

/-- Nothing is reported when the query succeeds without a warning, and nothing after it. -/
lemma warningsOf_fetch_eq_nil_iff :
    warningsOf (fetch schema table query answer store next).actions = [] ↔
      ∃ value, answer = ⟨[], .ok value⟩ ∧ warningsOf (next (store value)).actions = [] := by
  obtain ⟨warnings, result⟩ := answer
  cases result with
  | error e => simp [fetch]
  | ok value =>
    simp only [fetch, Task.actions_after, warningsOf_append, warningsOf_query, warningsOf_map_warn,
      List.append_eq_nil_iff]
    constructor
    · rintro ⟨rfl, hnext⟩
      exact ⟨value, rfl, hnext⟩
    · rintro ⟨_, heq, hnext⟩
      cases heq
      exact ⟨rfl, hnext⟩

lemma result_fetch_of_ok {value : α} :
    (fetch schema table query ⟨[], .ok value⟩ store next).result = (next (store value)).result :=
  rfl

end Fetch

variable {db : DbClient ε} {schema : Str} {format : OutputFormat} {table : TableDef}

/-- The tables have the same name and the same general information. -/
def SameTable (table t : TableDef) : Prop :=
  t.tableName = table.tableName ∧ t.general = table.general

lemma sameTable_enrichTableInner :
    SameTable table (enrichTableInner db schema format table).result := by
  cases format with
  | sql => exact result_fetch_of (p := SameTable table) ⟨rfl, rfl⟩ fun ddl => ⟨rfl, rfl⟩
  | excel | markdown =>
    simp only [enrichTableInner]
    split_ifs
    · refine result_fetch_of (p := SameTable table) ⟨rfl, rfl⟩ fun cols => ?_
      refine result_fetch_of (p := SameTable table) ⟨rfl, rfl⟩ fun idxs => ?_
      exact result_fetch_of (p := SameTable table) ⟨rfl, rfl⟩ fun cons => ⟨rfl, rfl⟩
    · exact result_fetch_of (p := SameTable table) ⟨rfl, rfl⟩ fun view => ⟨rfl, rfl⟩
    · exact ⟨rfl, rfl⟩

/-- How long the queries take does not matter for the result. -/
@[simp] lemma result_enrichTable (slow : Bool) :
    (enrichTable db schema format table slow).result = enriched db schema format table := by
  rw [enrichTable]
  split_ifs <;> rfl

/-- `t` is `table` with all that the database has for it, and no query for it had a warning. -/
inductive Complete (db : DbClient ε) (schema : Str) (table : TableDef) :
    OutputFormat → TableDef → Prop
  | ofTable {fmt : OutputFormat} {cols idxs cons} : fmt ≠ .sql → table.general.isTable = true →
    db.getColumns schema table.tableName = ⟨[], .ok cols⟩ →
    db.getIndexes schema table.tableName = ⟨[], .ok idxs⟩ →
    db.getConstraints schema table.tableName = ⟨[], .ok cons⟩ →
    Complete db schema table fmt
      { table with columns := cols, indexes := idxs, constraints := cons }
  | ofView {fmt : OutputFormat} {view} : fmt ≠ .sql → table.general.isTable = false →
    table.general.isView = true → db.getViewInfo schema table.tableName = ⟨[], .ok view⟩ →
    Complete db schema table fmt { table with view := some view }
  | ofOther {fmt : OutputFormat} : fmt ≠ .sql → table.general.isTable = false →
    table.general.isView = false → Complete db schema table fmt table
  | ofDdl {ddl} : db.getTableDdl schema table.tableName = ⟨[], .ok ddl⟩ →
    Complete db schema table .sql { table with
      ddl := some ddl.create, ddlAfter := ddl.after, ddlCrossSchema := ddl.crossSchema }

/-- A task without a warning has fetched everything. -/
lemma complete_enrichTableInner
    (h : warningsOf (enrichTableInner db schema format table).actions = []) :
    Complete db schema table format (enrichTableInner db schema format table).result := by
  cases format with
  | sql =>
    obtain ⟨ddl, hddl, -⟩ := warningsOf_fetch_eq_nil_iff.mp h
    rw [enrichTableInner, hddl]
    exact .ofDdl hddl
  | excel | markdown =>
    simp only [enrichTableInner] at h ⊢
    by_cases htable : table.general.isTable = true
    · rw [if_pos htable] at h ⊢
      obtain ⟨cols, hcols, h⟩ := warningsOf_fetch_eq_nil_iff.mp h
      obtain ⟨idxs, hidxs, h⟩ := warningsOf_fetch_eq_nil_iff.mp h
      obtain ⟨cons, hcons, -⟩ := warningsOf_fetch_eq_nil_iff.mp h
      rw [hcols, result_fetch_of_ok, hidxs, result_fetch_of_ok, hcons, result_fetch_of_ok]
      exact .ofTable (by decide) htable hcols hidxs hcons
    · rw [if_neg htable] at h ⊢
      by_cases hview : table.general.isView = true
      · rw [if_pos hview] at h ⊢
        obtain ⟨view, hview', -⟩ := warningsOf_fetch_eq_nil_iff.mp h
        rw [hview', result_fetch_of_ok]
        exact .ofView (by decide) (by simpa using htable) hview hview'
      · rw [if_neg hview]
        exact .ofOther (by decide) (by simpa using htable) (by simpa using hview)

/-- What a task without a warning gives. -/
lemma complete_enriched {slow : Bool}
    (h : warningsOf (enrichTable db schema format table slow).actions = []) :
    Complete db schema table format (enriched db schema format table) := by
  rw [enrichTable] at h
  split_ifs at h
  · rw [warningsOf_append, List.append_eq_nil_iff] at h
    exact absurd h.2 (List.cons_ne_nil _ _)
  · exact complete_enrichTableInner h

end TdExport
