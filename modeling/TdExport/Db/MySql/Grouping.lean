import TdExport.Core.Groups
import TdExport.Model.Basic

/-!
# Indexes and foreign keys of MySQL

`get_indexes` and `get_constraints` of `db/mysql.rs`: the queries return a row for each column, and
the loops put the rows of an index or of a foreign key together.
-/

namespace TdExport.MySql

open Core

/-! ### The loops -/

/-- A row of the query of `get_indexes`. The flag is the value, or the text of the error. -/
structure IndexRow where
  indexName : Str
  indexColumn : Option Str
  nonUniqueFlag : Except Str ℤ
  indexType : Option Str

/-- An index whose flag cannot be read counts as not unique. -/
def IndexRow.nonUnique (row : IndexRow) : ℤ :=
  match row.nonUniqueFlag with
  | .ok v => if v ≠ 0 then 1 else 0
  | .error _ => 1

/-- The index that a row starts. -/
def IndexRow.index (row : IndexRow) : IndexInfo where
  indexName := row.indexName
  nonUnique := row.nonUnique
  indexColumns := row.indexColumn.getD []
  predicate := none
  indexType := row.indexType
  includeColumns := none

/-- Put the column of a row behind the columns of an index. -/
def pushColumn (index : IndexInfo) (row : IndexRow) : IndexInfo :=
  match row.indexColumn with
  | some column =>
    let columns := if index.indexColumns ≠ [] then index.indexColumns ++ "," else index.indexColumns
    { index with indexColumns := columns ++ column }
  | none => index

def getIndexes (rows : List IndexRow) : List IndexInfo :=
  rows.foldl (groupStep IndexRow.indexName IndexInfo.indexName IndexRow.index pushColumn) []

/-- A row of the query of `get_constraints`. -/
structure ConstraintRow where
  constraintName : Str
  columnName : Str
  refSchema : Str
  refTable : Str
  refColumn : Str
  deleteRule : Str
  updateRule : Str
  deriving DecidableEq, Repr

/-- A foreign key while its columns are collected. -/
structure FkRow where
  name : Str
  columns : List Str
  refSchema : Str
  refTable : Str
  refColumns : List Str
  deleteAction : Str
  updateAction : Str
  deriving DecidableEq, Repr

/-- The foreign key that a row starts. -/
def ConstraintRow.foreignKey (row : ConstraintRow) : FkRow where
  name := row.constraintName
  columns := [row.columnName]
  refSchema := row.refSchema
  refTable := row.refTable
  refColumns := [row.refColumn]
  deleteAction := row.deleteRule
  updateAction := row.updateRule

/-- Put the two columns of a row behind those of a foreign key. -/
def FkRow.push (fk : FkRow) (row : ConstraintRow) : FkRow :=
  { fk with
    columns := fk.columns ++ [row.columnName]
    refColumns := fk.refColumns ++ [row.refColumn] }

def foreignKeys (rows : List ConstraintRow) : List FkRow :=
  rows.foldl (groupStep ConstraintRow.constraintName FkRow.name ConstraintRow.foreignKey FkRow.push)
    []

def FkRow.constInfo (schema : Str) (fk : FkRow) : ConstInfo where
  constraintName := fk.name
  constraintColumn := (", ".toList).intercalate fk.columns
  reference := fkReference schema fk.refSchema fk.refTable fk.refColumns
  deleteAction := fk.deleteAction
  updateAction := fk.updateAction

def getConstraints (schema : Str) (rows : List ConstraintRow) : List ConstInfo :=
  (foreignKeys rows).map (FkRow.constInfo schema)

/-! ### Indexes -/

lemma isGrouping_index :
    IsGrouping IndexRow.indexName IndexInfo.indexName IndexRow.index pushColumn where
  keyOf_start _ := rfl
  keyOf_extend index row := by
    unfold pushColumn
    cases row.indexColumn <;> rfl

/-- The columns of a block of rows. -/
def joinedColumns (rows : List IndexRow) : Str :=
  (",".toList).intercalate (rows.filterMap IndexRow.indexColumn)

lemma joinedColumns_concat_none {rows : List IndexRow} {row : IndexRow}
    (h : row.indexColumn = none) : joinedColumns (rows ++ [row]) = joinedColumns rows := by
  simp [joinedColumns, h]

/-- No column of the rows is an empty text, so the test of the loop tells whether there is one. -/
lemma joinedColumns_concat_some {rows : List IndexRow} {row : IndexRow} {column : Str}
    (hrows : ∀ row ∈ rows, row.indexColumn ≠ some []) (h : row.indexColumn = some column) :
    joinedColumns (rows ++ [row]) =
      (if joinedColumns rows ≠ [] then joinedColumns rows ++ "," else joinedColumns rows) ++
        column := by
  have hcolumns : ∀ text ∈ rows.filterMap IndexRow.indexColumn, text ≠ [] := by
    rintro text htext rfl
    obtain ⟨other, hother, hnil⟩ := List.mem_filterMap.mp htext
    exact hrows other hother hnil
  have hnil := intercalate_eq_nil_iff ",".toList hcolumns
  unfold joinedColumns
  rw [List.filterMap_append, List.filterMap_cons_some h, List.filterMap_nil]
  by_cases hempty : rows.filterMap IndexRow.indexColumn = []
  · rw [hempty, if_neg (by simp)]
    simp
  · rw [if_pos (mt hnil.mp hempty), intercalate_concat _ hempty]

/-- The index of a block of rows: the columns of all rows, and the rest of the first one. -/
lemma foldl_pushColumn (first : IndexRow) {rows : List IndexRow}
    (h : ∀ row ∈ first :: rows, row.indexColumn ≠ some []) :
    rows.foldl pushColumn first.index =
      { first.index with indexColumns := joinedColumns (first :: rows) } := by
  induction rows using List.reverseRecOn with
  | nil =>
    have hfirst : joinedColumns [first] = first.indexColumn.getD [] := by
      cases hcolumn : first.indexColumn <;> simp [joinedColumns, hcolumn]
    rw [hfirst]
    rfl
  | append_singleton rows row ih =>
    rw [← List.cons_append] at h
    have hrows : ∀ row ∈ first :: rows, row.indexColumn ≠ some [] :=
      fun other hother => h other (List.mem_append_left _ hother)
    rw [List.foldl_append, ih hrows, List.foldl_cons, List.foldl_nil, pushColumn]
    rw [← List.cons_append]
    cases hcolumn : row.indexColumn with
    | none => rw [joinedColumns_concat_none hcolumn]
    | some column => rw [joinedColumns_concat_some hrows hcolumn]

/-- What the rows of an index say about it. -/
structure IsIndexOf (rows : List IndexRow) (index : IndexInfo) : Prop where
  indexColumns : index.indexColumns = (",".toList).intercalate (rows.filterMap IndexRow.indexColumn)
  first : ∃ first, rows.head? = some first ∧ index.indexName = first.indexName ∧
    index.nonUnique = first.nonUnique ∧ index.indexType = first.indexType
  predicate : index.predicate = none
  includeColumns : index.includeColumns = none

lemma isIndexOf_groupOf {rows : List IndexRow} {index : IndexInfo}
    (hrows : ∀ row ∈ rows, row.indexColumn ≠ some [])
    (h : groupOf IndexRow.index pushColumn rows = some index) : IsIndexOf rows index := by
  obtain ⟨first, rest, rfl, rfl⟩ := groupOf_eq_some_iff.mp h
  rw [foldl_pushColumn first hrows]
  exact ⟨rfl, ⟨first, rfl, rfl, rfl, rfl⟩, rfl, rfl⟩

/-! ### Foreign keys -/

lemma isGrouping_foreignKey :
    IsGrouping ConstraintRow.constraintName FkRow.name ConstraintRow.foreignKey FkRow.push where
  keyOf_start _ := rfl
  keyOf_extend _ _ := rfl

lemma foldl_push (rows : List ConstraintRow) (fk : FkRow) :
    rows.foldl FkRow.push fk =
      { fk with
        columns := fk.columns ++ rows.map ConstraintRow.columnName
        refColumns := fk.refColumns ++ rows.map ConstraintRow.refColumn } := by
  induction rows generalizing fk with
  | nil => simp
  | cons row rows ih => rw [List.foldl_cons, ih]; simp [FkRow.push]

/-- How `reference` names the columns of a table: by `table.column` when there is one, by
`table(column, column)` else; a table of another schema carries the name of its schema. -/
def NamesColumns (schema refSchema refTable : Str) (refColumns : List Str) (reference : Str) :
    Prop :=
  ∃ table, table = (if refSchema = [] ∨ refSchema = schema then refTable
      else refSchema ++ "." ++ refTable) ∧
    (∀ column, refColumns = [column] → reference = table ++ "." ++ column) ∧
    (refColumns.length ≠ 1 →
      reference = table ++ "(" ++ ", ".toList.intercalate refColumns ++ ")")

lemma namesColumns_fkReference (schema refSchema refTable : Str) (refColumns : List Str) :
    NamesColumns schema refSchema refTable refColumns
      (fkReference schema refSchema refTable refColumns) := by
  refine ⟨_, rfl, ?_, fun hlength => ?_⟩
  · rintro column rfl
    rfl
  · match refColumns with
    | [] => rfl
    | [column] => exact absurd rfl hlength
    | _ :: _ :: _ => rfl

/-- What the rows of a foreign key say about it: its columns and the columns they refer to stand at
the same positions as their rows. -/
structure IsConstraintOf (schema : Str) (rows : List ConstraintRow) (c : ConstInfo) : Prop where
  constraintColumn : c.constraintColumn =
    (", ".toList).intercalate (rows.map ConstraintRow.columnName)
  first : ∃ first, rows.head? = some first ∧ c.constraintName = first.constraintName ∧
    NamesColumns schema first.refSchema first.refTable (rows.map ConstraintRow.refColumn)
      c.reference ∧
    c.deleteAction = first.deleteRule ∧ c.updateAction = first.updateRule

lemma isConstraintOf_groupOf (schema : Str) {rows : List ConstraintRow} {fk : FkRow}
    (h : groupOf ConstraintRow.foreignKey FkRow.push rows = some fk) :
    IsConstraintOf schema rows (fk.constInfo schema) := by
  obtain ⟨first, rest, rfl, rfl⟩ := groupOf_eq_some_iff.mp h
  rw [foldl_push]
  exact ⟨rfl, ⟨first, rfl, rfl, namesColumns_fkReference _ _ _ _, rfl, rfl⟩⟩

/-! ### Nothing is lost -/

/-- An index of two columns with an expression between them whose text is `NULL`. -/
def indexRows : List IndexRow :=
  [⟨"i", some "a", .ok 1, some "BTREE"⟩, ⟨"i", none, .ok 1, some "BTREE"⟩,
    ⟨"i", some "b", .ok 1, some "BTREE"⟩]

/-- A foreign key of two columns. -/
def constraintRows : List ConstraintRow :=
  [⟨"fk", "a", "s", "t", "x", "CASCADE", "RESTRICT"⟩,
    ⟨"fk", "b", "s", "t", "y", "CASCADE", "RESTRICT"⟩]

end TdExport.MySql
