import TdExport.Model.Basic

/-!
# The cells of a worksheet

`write_tables_to_sheet` of `export/excel.rs`, as the requests that it makes of the library that
writes the workbook when no request fails.
-/

namespace TdExport.Excel

open Core

/-- The formats of cells: those of titles and of the rows around a table, and `Format::new()`. -/
inductive CellFormat
  | titleFmt
  | startFmt
  | endFmt
  | new
  deriving DecidableEq, Repr

inductive CellValue
  | text (s : Str)
  | number (n : ℕ)
  deriving DecidableEq, Repr

/-- A request: a value for one cell, or a text for a range of cells that are merged. -/
inductive Request
  | write (row col : ℕ) (value : CellValue) (format : Option CellFormat)
  | mergeRange (firstRow firstCol lastRow lastCol : ℕ) (text : Str) (format : CellFormat)
  deriving DecidableEq, Repr

/-- The requests made so far, and the number of the row that is written next. -/
structure Sheet where
  row : ℕ := 0
  requests : List Request := []
  deriving DecidableEq, Repr

/-- The columns of an index, with its included columns and its predicate. -/
def columnsCell (idx : IndexInfo) : Str :=
  let included (cols : Str) : Str := " INCLUDE (" ++ cols ++ ")"
  let predicate (pred : Str) : Str := " WHERE " ++ pred
  idx.indexColumns ++ (idx.includeColumns.map included).getD [] ++
    (idx.predicate.map predicate).getD []

namespace Sheet

variable (s : Sheet)

def write (col : ℕ) (value : Str) : Sheet :=
  { s with requests := s.requests ++ [.write s.row col (.text value) none] }

def writeNumber (col : ℕ) (value : ℕ) : Sheet :=
  { s with requests := s.requests ++ [.write s.row col (.number value) none] }

def writeWithFormat (col : ℕ) (value : Str) (format : CellFormat) : Sheet :=
  { s with requests := s.requests ++ [.write s.row col (.text value) (some format)] }

def mergeRange (firstCol lastCol : ℕ) (text : Str) (format : CellFormat) : Sheet :=
  { s with requests := s.requests ++ [.mergeRange s.row firstCol s.row lastCol text format] }

/-- `row += 1` -/
def nextRow : Sheet := { s with row := s.row + 1 }

/-! ### The head of a table -/

/-- The row above or below a table. -/
def writeBorder (format : CellFormat) : Sheet :=
  ((List.range 10).foldl (fun s col => s.writeWithFormat col [] format) s).nextRow

def writeHead (t : TableDef) : Sheet :=
  let s := s.writeBorder .startFmt
  let s := s.mergeRange 0 1 "Table name" .titleFmt |>.mergeRange 2 9 t.tableName .new |>.nextRow
  let comment := t.general.comment.getD []
  let s := s.mergeRange 0 1 "Description" .titleFmt |>.mergeRange 2 9 comment .new |>.nextRow
  s.mergeRange 0 9 "Column Information" .titleFmt |>.nextRow

/-! ### Tables -/

/-- One turn of the loop over the columns; the index is written as a `u32`. -/
def writeColumn (p : ColumnInfo × ℕ) : Sheet :=
  let (c, i) := p
  s.writeNumber 0 (i % 2 ^ 32)
    |>.write 1 c.columnName
    |>.write 2 c.columnType
    |>.write 3 c.nullable
    |>.write 4 (c.columnKey.getD [])
    |>.write 5 (c.extra.getD [])
    |>.write 6 (c.collation.getD [])
    |>.write 7 c.displayDefault
    |>.mergeRange 8 9 (c.comment.getD []) .new
    |>.nextRow

def writeColumns (t : TableDef) : Sheet :=
  let s := s.writeWithFormat 0 "No" .titleFmt
    |>.writeWithFormat 1 "Column" .titleFmt
    |>.writeWithFormat 2 "Data Type" .titleFmt
    |>.writeWithFormat 3 "Nullable" .titleFmt
    |>.writeWithFormat 4 "Key" .titleFmt
    |>.writeWithFormat 5 "Extra" .titleFmt
    |>.writeWithFormat 6 "Collate" .titleFmt
    |>.writeWithFormat 7 "Default" .titleFmt
    |>.mergeRange 8 9 "Comment" .titleFmt
    |>.nextRow
  t.columns.zipIdx.foldl writeColumn s

/-- One turn of the loop over the indexes. -/
def writeIndex (idx : IndexInfo) : Sheet :=
  s.mergeRange 0 1 (idx.kindLabel ++ " Index") .new
    |>.mergeRange 2 5 idx.indexName .new
    |>.mergeRange 6 9 (columnsCell idx) .new
    |>.nextRow

def writeIndexes (t : TableDef) : Sheet :=
  if t.indexes = [] then s
  else
    let s := s.mergeRange 0 9 "Indexes" .titleFmt |>.nextRow
    let s := s.mergeRange 0 1 "Index Type" .titleFmt
      |>.mergeRange 2 5 "Index Name" .titleFmt
      |>.mergeRange 6 9 "Columns" .titleFmt
      |>.nextRow
    t.indexes.foldl writeIndex s

/-- One turn of the loop over the constraints. -/
def writeConstraint (con : ConstInfo) : Sheet :=
  s.mergeRange 0 2 con.constraintName .new
    |>.write 3 con.constraintColumn
    |>.mergeRange 4 7 con.reference .new
    |>.write 8 con.deleteAction
    |>.write 9 con.updateAction
    |>.nextRow

def writeConstraints (t : TableDef) : Sheet :=
  if t.constraints = [] then s
  else
    let s := s.mergeRange 0 9 "Constraint" .titleFmt |>.nextRow
    let s := s.mergeRange 0 2 "Constraint Name" .titleFmt
      |>.writeWithFormat 3 "Column" .titleFmt
      |>.mergeRange 4 7 "Reference" .titleFmt
      |>.writeWithFormat 8 "ON DELETE" .titleFmt
      |>.writeWithFormat 9 "ON UPDATE" .titleFmt
      |>.nextRow
    t.constraints.foldl writeConstraint s

/-! ### Views -/

def writeView (t : TableDef) : Sheet :=
  let s := s.mergeRange 0 9 "View Create SQL" .titleFmt |>.nextRow
  let viewQuery := (t.view.map ViewInfo.viewQuery).getD []
  s.mergeRange 0 9 viewQuery .new |>.nextRow

/-! ### The end of a table -/

def writeInformation (t : TableDef) : Sheet :=
  let s := s.mergeRange 0 9 "Table Information" .titleFmt |>.nextRow
  let s := s.mergeRange 0 1 "Engine" .titleFmt
    |>.mergeRange 2 3 (t.general.engine.getD []) .new
    |>.mergeRange 4 5 "Row Format" .titleFmt
    |>.mergeRange 6 9 (t.general.rowFormat.getD []) .new
    |>.nextRow
  let s := s.mergeRange 0 1 "Table Type" .titleFmt
    |>.mergeRange 2 3 t.general.tableType .new
    |>.mergeRange 4 5 "Collation" .titleFmt
  let collation :=
    if t.general.isView then (t.view.map ViewInfo.collate).getD []
    else t.general.collate.getD []
  let s := s.mergeRange 6 9 collation .new |>.nextRow
  -- the second step leaves an empty row
  s.writeBorder .endFmt |>.nextRow

/-- One turn of the loop over the tables. -/
def writeTable (t : TableDef) : Sheet :=
  let s := s.writeHead t
  let s :=
    if t.general.isTable then s.writeColumns t |>.writeIndexes t |>.writeConstraints t
    else if t.general.isView then s.writeView t
    else s
  s.writeInformation t

end Sheet

def writeTablesToSheet (tables : List TableDef) : Sheet := tables.foldl Sheet.writeTable {}

end TdExport.Excel
