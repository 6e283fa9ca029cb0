import TdExport.Core.Grid
import TdExport.Export.Excel.Sheet

/-!
# The layout of a worksheet

The requests of `write_tables_to_sheet` read as lines one below the other. No two requests have a
cell in common.
-/

namespace TdExport.Excel

open Core

/-! ### Lines -/

/-- A request without its row. -/
inductive Cell
  | write (col : ℕ) (value : CellValue) (format : Option CellFormat)
  | mergeRange (firstCol lastCol : ℕ) (text : Str) (format : CellFormat)

def Cell.request (row : ℕ) : Cell → Request
  | write col value format => .write row col value format
  | mergeRange firstCol lastCol text format => .mergeRange row firstCol row lastCol text format

/-- The cells that a request writes. -/
def Request.rect : Request → Rect
  | write row col _ _ => ⟨row, col, row, col⟩
  | mergeRange firstRow firstCol lastRow lastCol _ _ => ⟨firstRow, firstCol, lastRow, lastCol⟩

/-- The columns of a cell, and whether it is merged. -/
inductive Shape
  | single (col : ℕ)
  | merged (firstCol lastCol : ℕ)
  deriving DecidableEq

def Cell.shape : Cell → Shape
  | write col _ _ => .single col
  | mergeRange firstCol lastCol _ _ => .merged firstCol lastCol

def Shape.span : Shape → Span
  | single col => ⟨col, col⟩
  | merged firstCol lastCol => ⟨firstCol, lastCol⟩

/-- Within ten columns; a merged range has at least two cells. -/
def Shape.Ok : Shape → Prop
  | single col => col ≤ 9
  | merged firstCol lastCol => firstCol < lastCol ∧ lastCol ≤ 9

instance : DecidablePred Shape.Ok
  | .single col => inferInstanceAs (Decidable (col ≤ 9))
  | .merged firstCol lastCol => inferInstanceAs (Decidable (firstCol < lastCol ∧ lastCol ≤ 9))

abbrev Line := List Cell

/-- The requests of lines one below the other. -/
def requestsFrom : ℕ → List Line → List Request
  | _, [] => []
  | row, line :: lines => line.map (Cell.request row) ++ requestsFrom (row + 1) lines

/-- The columns of the requests of a line. -/
def spans (line : Line) : List Span := line.map fun c => c.shape.span

variable {row : ℕ} {lines : List Line} {r : Request}

lemma rect_request (row : ℕ) (c : Cell) : (c.request row).rect = c.shape.span.at row := by
  cases c <;> rfl

lemma map_rect_requestsFrom (row : ℕ) (lines : List Line) :
    (requestsFrom row lines).map Request.rect = stack row (lines.map spans) := by
  induction lines generalizing row with
  | nil => rfl
  | cons line lines ih =>
    have hline : (line.map (Cell.request row)).map Request.rect =
        (spans line).map (Span.at · row) := by
      rw [spans, List.map_map, List.map_map]
      exact List.map_congr_left fun c _ => rect_request row c
    rw [requestsFrom, List.map_append, ih, List.map_cons, stack, hline]

lemma requestsFrom_append (row : ℕ) (lines lines' : List Line) :
    requestsFrom row (lines ++ lines') =
      requestsFrom row lines ++ requestsFrom (row + lines.length) lines' := by
  induction lines generalizing row with
  | nil => rfl
  | cons line lines ih =>
    rw [List.cons_append, requestsFrom, requestsFrom, ih, List.append_assoc, List.length_cons,
      Nat.add_right_comm, Nat.add_assoc]

lemma exists_request_of_mem (h : r ∈ requestsFrom row lines) :
    ∃ row', ∃ line ∈ lines, ∃ c ∈ line, c.request row' = r := by
  induction lines generalizing row with
  | nil => cases h
  | cons line lines ih =>
    rcases List.mem_append.mp h with h | h
    · obtain ⟨c, hc, rfl⟩ := List.mem_map.mp h
      exact ⟨row, line, List.mem_cons_self, c, hc, rfl⟩
    · obtain ⟨row', line', hline', hr⟩ := ih h
      exact ⟨row', line', List.mem_cons_of_mem _ hline', hr⟩

/-- The requests lie in the rows of the lines. -/
lemma rect_of_mem_requestsFrom (h : r ∈ requestsFrom row lines) :
    r.rect.bottom = r.rect.top ∧ row ≤ r.rect.top ∧ r.rect.top < row + lines.length := by
  have hmem : r.rect ∈ stack row (lines.map spans) :=
    map_rect_requestsFrom row lines ▸ List.mem_map_of_mem h
  have hrows := mem_stack hmem
  rwa [List.length_map] at hrows

/-- The rows of the requests are those of the lines when no line is empty. -/
lemma exists_mem_requestsFrom_iff (hlines : ∀ line ∈ lines, line ≠ []) {k : ℕ} :
    (∃ r ∈ requestsFrom row lines, r.rect.top = k) ↔ row ≤ k ∧ k < row + lines.length := by
  have hspans : ∀ line ∈ lines.map spans, line ≠ [] := by
    intro line hline
    obtain ⟨cells, hcells, rfl⟩ := List.mem_map.mp hline
    exact fun hnil => hlines cells hcells (List.map_eq_nil_iff.mp hnil)
  have hstack : (∃ r ∈ stack row (lines.map spans), r.top = k) ↔
      row ≤ k ∧ k < row + (lines.map spans).length := exists_mem_stack_iff hspans
  rw [List.length_map, ← map_rect_requestsFrom] at hstack
  rw [← hstack]
  simp only [List.mem_map, exists_exists_and_eq_and]

namespace Sheet

variable (s : Sheet)

def writeLine (line : Line) : Sheet := ⟨s.row + 1, s.requests ++ line.map (Cell.request s.row)⟩

def writeLines (lines : List Line) : Sheet := lines.foldl writeLine s

lemma writeLines_append (lines lines' : List Line) :
    s.writeLines (lines ++ lines') = (s.writeLines lines).writeLines lines' :=
  List.foldl_append

lemma row_writeLines (lines : List Line) : (s.writeLines lines).row = s.row + lines.length := by
  induction lines generalizing s with
  | nil => rfl
  | cons line lines ih =>
    have hrow : (s.writeLine line).row = s.row + 1 := rfl
    rw [writeLines, List.foldl_cons, ← writeLines, ih, hrow, List.length_cons]
    omega

/-- The requests of the lines come after those that were there. -/
lemma requests_writeLines (lines : List Line) :
    (s.writeLines lines).requests = s.requests ++ requestsFrom s.row lines := by
  induction lines generalizing s with
  | nil => rw [requestsFrom, List.append_nil]; rfl
  | cons line lines ih =>
    rw [writeLines, List.foldl_cons, ← writeLines, ih, writeLine, requestsFrom, List.append_assoc]

end Sheet

/-! ### The lines of a table -/

def borderLine (format : CellFormat) : Line :=
  (List.range 10).map fun col => .write col (.text []) (some format)

def titleLine (title : Str) : Line := [.mergeRange 0 9 title .titleFmt]

/-- A title and a text. -/
def pairLine (title text : Str) : Line :=
  [.mergeRange 0 1 title .titleFmt, .mergeRange 2 9 text .new]

def headLines (t : TableDef) : List Line :=
  [borderLine .startFmt, pairLine "Table name" t.tableName,
    pairLine "Description" (t.general.comment.getD []), titleLine "Column Information"]

def columnLine (p : ColumnInfo × ℕ) : Line :=
  [.write 0 (.number (p.2 % 2 ^ 32)) none, .write 1 (.text p.1.columnName) none,
    .write 2 (.text p.1.columnType) none, .write 3 (.text p.1.nullable) none,
    .write 4 (.text (p.1.columnKey.getD [])) none, .write 5 (.text (p.1.extra.getD [])) none,
    .write 6 (.text (p.1.collation.getD [])) none, .write 7 (.text p.1.displayDefault) none,
    .mergeRange 8 9 (p.1.comment.getD []) .new]

def columnHeader : Line :=
  [.write 0 (.text "No") (some .titleFmt), .write 1 (.text "Column") (some .titleFmt),
    .write 2 (.text "Data Type") (some .titleFmt), .write 3 (.text "Nullable") (some .titleFmt),
    .write 4 (.text "Key") (some .titleFmt), .write 5 (.text "Extra") (some .titleFmt),
    .write 6 (.text "Collate") (some .titleFmt), .write 7 (.text "Default") (some .titleFmt),
    .mergeRange 8 9 "Comment" .titleFmt]

def columnLines (t : TableDef) : List Line := columnHeader :: t.columns.zipIdx.map columnLine

/-- A title, a header and a line for each entry, when there is one. -/
def sectionLines {α : Type*} (title : Str) (header : Line) (line : α → Line) (l : List α) :
    List Line :=
  if l = [] then [] else titleLine title :: header :: l.map line

def indexLine (kind name columns : Str) (format : CellFormat) : Line :=
  [.mergeRange 0 1 kind format, .mergeRange 2 5 name format, .mergeRange 6 9 columns format]

def indexLines (t : TableDef) : List Line :=
  sectionLines "Indexes" (indexLine "Index Type" "Index Name" "Columns" .titleFmt)
    (fun idx => indexLine (idx.kindLabel ++ " Index") idx.indexName (columnsCell idx) .new)
    t.indexes

def constraintLine (con : ConstInfo) : Line :=
  [.mergeRange 0 2 con.constraintName .new, .write 3 (.text con.constraintColumn) none,
    .mergeRange 4 7 con.reference .new, .write 8 (.text con.deleteAction) none,
    .write 9 (.text con.updateAction) none]

def constraintHeader : Line :=
  [.mergeRange 0 2 "Constraint Name" .titleFmt, .write 3 (.text "Column") (some .titleFmt),
    .mergeRange 4 7 "Reference" .titleFmt, .write 8 (.text "ON DELETE") (some .titleFmt),
    .write 9 (.text "ON UPDATE") (some .titleFmt)]

def constraintLines (t : TableDef) : List Line :=
  sectionLines "Constraint" constraintHeader constraintLine t.constraints

def viewLines (t : TableDef) : List Line :=
  [titleLine "View Create SQL", [.mergeRange 0 9 ((t.view.map ViewInfo.viewQuery).getD []) .new]]

/-- Two titles with their texts. -/
def propertyLine (title text title' text' : Str) : Line :=
  [.mergeRange 0 1 title .titleFmt, .mergeRange 2 3 text .new, .mergeRange 4 5 title' .titleFmt,
    .mergeRange 6 9 text' .new]

def shownCollation (t : TableDef) : Str :=
  if t.general.isView then (t.view.map ViewInfo.collate).getD [] else t.general.collate.getD []

def informationLines (t : TableDef) : List Line :=
  [titleLine "Table Information",
    propertyLine "Engine" (t.general.engine.getD []) "Row Format" (t.general.rowFormat.getD []),
    propertyLine "Table Type" t.general.tableType "Collation" (shownCollation t),
    borderLine .endFmt]

def bodyLines (t : TableDef) : List Line :=
  if t.general.isTable then columnLines t ++ indexLines t ++ constraintLines t
  else if t.general.isView then viewLines t
  else []

/-- The lines of a table in which something is written. -/
def writtenLines (t : TableDef) : List Line := headLines t ++ bodyLines t ++ informationLines t

/-- The lines of a table, the last of which is empty. -/
def tableLines (t : TableDef) : List Line := writtenLines t ++ [[]]

/-! ### The code writes these lines -/

namespace Sheet

variable (s : Sheet) (t : TableDef)

lemma writeBorder_eq (format : CellFormat) :
    s.writeBorder format = s.writeLine (borderLine format) := by
  simp [writeBorder, borderLine, writeLine, writeWithFormat, nextRow, List.range, List.range.loop,
    Cell.request]

lemma writeHead_eq : s.writeHead t = s.writeLines (headLines t) := by
  simp [writeHead, headLines, writeBorder_eq, writeLines, writeLine, mergeRange, nextRow, pairLine,
    titleLine, Cell.request]

lemma writeColumn_eq (p : ColumnInfo × ℕ) : s.writeColumn p = s.writeLine (columnLine p) := by
  simp [writeColumn, columnLine, writeLine, writeNumber, write, mergeRange, nextRow, Cell.request]

lemma writeIndex_eq (idx : IndexInfo) :
    s.writeIndex idx = s.writeLine
      (indexLine (idx.kindLabel ++ " Index") idx.indexName (columnsCell idx) .new) := by
  simp [writeIndex, indexLine, writeLine, mergeRange, nextRow, Cell.request]

lemma writeConstraint_eq (con : ConstInfo) :
    s.writeConstraint con = s.writeLine (constraintLine con) := by
  simp [writeConstraint, constraintLine, writeLine, write, mergeRange, nextRow, Cell.request]

variable {s t}

/-- A loop that writes a line in each turn. -/
lemma foldl_eq_writeLines {α : Type*} {f : Sheet → α → Sheet} {line : α → Line}
    (h : ∀ s a, f s a = s.writeLine (line a)) (l : List α) :
    l.foldl f s = s.writeLines (l.map line) := by
  rw [writeLines, List.foldl_map]
  exact congrArg (fun g => l.foldl g s) (funext₂ h)

variable (s t)

lemma writeColumns_eq : s.writeColumns t = s.writeLines (columnLines t) := by
  have hheader : s.writeColumns t =
      t.columns.zipIdx.foldl writeColumn (s.writeLine columnHeader) := by
    simp [writeColumns, columnHeader, writeLine, writeWithFormat, mergeRange, nextRow,
      Cell.request]
  rw [hheader, foldl_eq_writeLines writeColumn_eq]
  rfl

lemma writeIndexes_eq : s.writeIndexes t = s.writeLines (indexLines t) := by
  rw [writeIndexes, indexLines, sectionLines]
  split_ifs
  · rfl
  · have hlines := foldl_eq_writeLines (s := (s.writeLine (titleLine "Indexes")).writeLine
      (indexLine "Index Type" "Index Name" "Columns" .titleFmt)) writeIndex_eq t.indexes
    refine Eq.trans ?_ hlines
    simp [writeLine, titleLine, indexLine, mergeRange, nextRow, Cell.request]

lemma writeConstraints_eq : s.writeConstraints t = s.writeLines (constraintLines t) := by
  rw [writeConstraints, constraintLines, sectionLines]
  split_ifs
  · rfl
  · have hlines := foldl_eq_writeLines (s := (s.writeLine (titleLine "Constraint")).writeLine
      constraintHeader) writeConstraint_eq t.constraints
    refine Eq.trans ?_ hlines
    simp [writeLine, titleLine, constraintHeader, writeWithFormat, mergeRange, nextRow,
      Cell.request]

lemma writeView_eq : s.writeView t = s.writeLines (viewLines t) := by
  simp [writeView, viewLines, titleLine, writeLines, writeLine, mergeRange, nextRow, Cell.request]

lemma writeInformation_eq :
    s.writeInformation t = s.writeLines (informationLines t ++ [[]]) := by
  simp [writeInformation, informationLines, writeBorder_eq, writeLines, writeLine, titleLine,
    propertyLine, shownCollation, mergeRange, nextRow, Cell.request]

/-- One turn of the loop over the tables writes the lines of the table. -/
theorem writeTable_eq : s.writeTable t = s.writeLines (tableLines t) := by
  have hbody : (if t.general.isTable then
        (((s.writeHead t).writeColumns t).writeIndexes t).writeConstraints t
      else if t.general.isView then (s.writeHead t).writeView t else s.writeHead t) =
      (s.writeHead t).writeLines (bodyLines t) := by
    rw [bodyLines]
    split_ifs
    · rw [writeColumns_eq, writeIndexes_eq, writeConstraints_eq, writeLines_append,
        writeLines_append]
    · rw [writeView_eq]
    · rfl
  have htable : s.writeTable t =
      ((s.writeHead t).writeLines (bodyLines t)).writeInformation t :=
    congrArg (fun s : Sheet => s.writeInformation t) hbody
  rw [htable, writeInformation_eq, writeHead_eq, tableLines, writtenLines]
  simp only [writeLines_append]

end Sheet

/-! ### All tables -/

/-- The lines of the tables, one table below the other. -/
lemma foldl_writeTable (s : Sheet) (tables : List TableDef) :
    tables.foldl Sheet.writeTable s = s.writeLines (tables.flatMap tableLines) := by
  induction tables generalizing s with
  | nil => rfl
  | cons t tables ih =>
    rw [List.foldl_cons, ih, Sheet.writeTable_eq, List.flatMap_cons, Sheet.writeLines_append]

/-- The number of rows of a table. -/
def height (t : TableDef) : ℕ :=
  9 + if t.general.isTable then
      1 + t.columns.length + (if t.indexes = [] then 0 else 2 + t.indexes.length) +
        (if t.constraints = [] then 0 else 2 + t.constraints.length)
    else if t.general.isView then 2
    else 0

lemma length_sectionLines {α : Type*} (title : Str) (header : Line) (line : α → Line)
    (l : List α) :
    (sectionLines title header line l).length = if l = [] then 0 else 2 + l.length := by
  rw [sectionLines]
  split_ifs
  · rfl
  · rw [List.length_cons, List.length_cons, List.length_map, Nat.add_assoc, Nat.add_comm]

lemma length_writtenLines (t : TableDef) : (writtenLines t).length + 1 = height t := by
  have hindexes : (indexLines t).length = if t.indexes = [] then 0 else 2 + t.indexes.length :=
    length_sectionLines _ _ _ _
  have hconstraints : (constraintLines t).length =
      if t.constraints = [] then 0 else 2 + t.constraints.length :=
    length_sectionLines _ _ _ _
  have hcolumns : (columnLines t).length = 1 + t.columns.length := by
    rw [columnLines, List.length_cons, List.length_map, List.length_zipIdx, Nat.add_comm]
  have hbody : (bodyLines t).length + 9 = height t := by
    rw [bodyLines, height, ← hindexes, ← hconstraints, ← hcolumns]
    split_ifs
    · rw [List.length_append, List.length_append, Nat.add_comm]
    · rfl
    · rfl
  rw [← hbody, writtenLines, List.length_append, List.length_append, headLines, informationLines,
    List.length_cons]
  simp only [List.length_cons, List.length_nil]
  omega

lemma length_tableLines (t : TableDef) : (tableLines t).length = height t := by
  rw [tableLines, List.length_append, ← length_writtenLines]
  rfl

/-- The first row behind the tables. -/
def topRow (before : List TableDef) : ℕ := (before.map height).sum

lemma topRow_concat (before : List TableDef) (t : TableDef) :
    topRow (before ++ [t]) = topRow before + height t := by
  rw [topRow, List.map_append, List.sum_append]
  rfl

lemma length_flatMap_tableLines (tables : List TableDef) :
    (tables.flatMap tableLines).length = topRow tables := by
  rw [List.length_flatMap, topRow]
  exact congrArg List.sum (List.map_congr_left fun t _ => length_tableLines t)

/-! ### The shapes of the lines -/

/-- The columns of a border, a title, a title and a text, a column, an index, a constraint, and of
two titles with their texts. -/
def lineShapes : List (List Shape) :=
  [[.single 0, .single 1, .single 2, .single 3, .single 4, .single 5, .single 6, .single 7,
      .single 8, .single 9],
    [.merged 0 9],
    [.merged 0 1, .merged 2 9],
    [.single 0, .single 1, .single 2, .single 3, .single 4, .single 5, .single 6, .single 7,
      .merged 8 9],
    [.merged 0 1, .merged 2 5, .merged 6 9],
    [.merged 0 2, .single 3, .merged 4 7, .single 8, .single 9],
    [.merged 0 1, .merged 2 3, .merged 4 5, .merged 6 9]]

/-- In a line of such shapes something is written, and the spans stand from left to right. -/
lemma ok_of_mem_lineShapes : ∀ shapes ∈ lineShapes,
    shapes ≠ [] ∧ LeftToRight (shapes.map Shape.span) ∧ ∀ shape ∈ shapes, shape.Ok := by
  decide

/-- The shape of the line is one of those. -/
def Shaped (line : Line) : Prop := line.map Cell.shape ∈ lineShapes

lemma shaped_borderLine (format : CellFormat) : Shaped (borderLine format) :=
  List.mem_of_getElem? (i := 0) rfl

lemma shaped_titleLine (title : Str) : Shaped (titleLine title) :=
  List.mem_of_getElem? (i := 1) rfl

lemma shaped_pairLine (title text : Str) : Shaped (pairLine title text) :=
  List.mem_of_getElem? (i := 2) rfl

lemma shaped_columnHeader : Shaped columnHeader := List.mem_of_getElem? (i := 3) rfl

lemma shaped_columnLine (p : ColumnInfo × ℕ) : Shaped (columnLine p) :=
  List.mem_of_getElem? (i := 3) rfl

lemma shaped_indexLine (kind name columns : Str) (format : CellFormat) :
    Shaped (indexLine kind name columns format) :=
  List.mem_of_getElem? (i := 4) rfl

lemma shaped_constraintHeader : Shaped constraintHeader := List.mem_of_getElem? (i := 5) rfl

lemma shaped_constraintLine (con : ConstInfo) : Shaped (constraintLine con) :=
  List.mem_of_getElem? (i := 5) rfl

lemma shaped_propertyLine (title text title' text' : Str) :
    Shaped (propertyLine title text title' text') :=
  List.mem_of_getElem? (i := 6) rfl

lemma shaped_of_mem_map {α : Type*} {line : α → Line} (h : ∀ a, Shaped (line a)) (l : List α) :
    ∀ x ∈ l.map line, Shaped x := by
  intro x hx
  obtain ⟨a, -, rfl⟩ := List.mem_map.mp hx
  exact h a

lemma shaped_of_mem_sectionLines {α : Type*} (title : Str) {header : Line} {line : α → Line}
    (hheader : Shaped header) (hline : ∀ a, Shaped (line a)) (l : List α) :
    ∀ x ∈ sectionLines title header line l, Shaped x := by
  rw [sectionLines]
  split_ifs
  · exact List.forall_mem_nil _
  · refine List.forall_mem_cons.mpr ⟨shaped_titleLine title, ?_⟩
    exact List.forall_mem_cons.mpr ⟨hheader, shaped_of_mem_map hline l⟩

lemma shaped_of_mem_bodyLines (t : TableDef) : ∀ line ∈ bodyLines t, Shaped line := by
  have hcolumns : ∀ line ∈ columnLines t, Shaped line :=
    List.forall_mem_cons.mpr ⟨shaped_columnHeader, shaped_of_mem_map shaped_columnLine _⟩
  have hindexes : ∀ line ∈ indexLines t, Shaped line :=
    shaped_of_mem_sectionLines _ (shaped_indexLine _ _ _ _) (fun _ => shaped_indexLine _ _ _ _) _
  have hconstraints : ∀ line ∈ constraintLines t, Shaped line :=
    shaped_of_mem_sectionLines _ shaped_constraintHeader shaped_constraintLine _
  rw [bodyLines]
  split_ifs
  · exact List.forall_mem_append.mpr ⟨List.forall_mem_append.mpr ⟨hcolumns, hindexes⟩, hconstraints⟩
  · -- the text of a view is written as a title is
    have hview : ∀ line ∈ viewLines t, line.map Cell.shape = [.merged 0 9] := by
      simp [viewLines, titleLine, Cell.shape]
    intro line hline
    rw [Shaped, hview line hline]
    exact List.mem_of_getElem? (i := 1) rfl
  · exact List.forall_mem_nil _

lemma shaped_of_mem_writtenLines (t : TableDef) : ∀ line ∈ writtenLines t, Shaped line := by
  have hhead : ∀ line ∈ headLines t, Shaped line := by
    simp only [headLines, List.forall_mem_cons]
    exact ⟨shaped_borderLine _, shaped_pairLine _ _, shaped_pairLine _ _, shaped_titleLine _,
      List.forall_mem_nil _⟩
  have hinformation : ∀ line ∈ informationLines t, Shaped line := by
    simp only [informationLines, List.forall_mem_cons]
    exact ⟨shaped_titleLine _, shaped_propertyLine _ _ _ _, shaped_propertyLine _ _ _ _,
      shaped_borderLine _, List.forall_mem_nil _⟩
  rw [writtenLines]
  exact List.forall_mem_append.mpr
    ⟨List.forall_mem_append.mpr ⟨hhead, shaped_of_mem_bodyLines t⟩, hinformation⟩

lemma Shaped.ne_nil {line : Line} (h : Shaped line) : line ≠ [] :=
  fun hnil => (ok_of_mem_lineShapes _ h).1 (List.map_eq_nil_iff.mpr hnil)

lemma Shaped.leftToRight {line : Line} (h : Shaped line) : LeftToRight (spans line) := by
  have hspans := (ok_of_mem_lineShapes _ h).2.1
  rwa [List.map_map] at hspans

lemma Shaped.ok {line : Line} (h : Shaped line) : ∀ c ∈ line, c.shape.Ok :=
  fun _ hc => (ok_of_mem_lineShapes _ h).2.2 _ (List.mem_map_of_mem hc)

/-! ### The layout -/

/-- Within the columns of the sheet; a merged range has at least two cells of one row. -/
def Request.Fits : Request → Prop
  | write _ col _ _ => col ≤ 9
  | mergeRange firstRow firstCol lastRow lastCol _ _ =>
    lastRow = firstRow ∧ firstCol < lastCol ∧ lastCol ≤ 9

lemma fits_request {c : Cell} (h : c.shape.Ok) (row : ℕ) : (c.request row).Fits := by
  cases c with
  | write col value format => exact h
  | mergeRange firstCol lastCol text format => exact ⟨rfl, h⟩

lemma row_writeTablesToSheet (tables : List TableDef) :
    (writeTablesToSheet tables).row = topRow tables := by
  rw [writeTablesToSheet, foldl_writeTable, Sheet.row_writeLines, length_flatMap_tableLines]
  exact Nat.zero_add _

lemma requests_writeTablesToSheet (tables : List TableDef) :
    (writeTablesToSheet tables).requests = requestsFrom 0 (tables.flatMap tableLines) := by
  rw [writeTablesToSheet, foldl_writeTable, Sheet.requests_writeLines, List.nil_append]

/-- The requests for a table and its rows, of which the last one is empty. -/
lemma rows_requestsFrom_tableLines (top : ℕ) (t : TableDef) (k : ℕ) :
    (∃ r ∈ requestsFrom top (tableLines t), r.rect.top = k) ↔
      top ≤ k ∧ k + 1 < top + height t := by
  have hrequests : requestsFrom top (tableLines t) = requestsFrom top (writtenLines t) := by
    rw [tableLines, requestsFrom_append]
    exact List.append_nil _
  rw [hrequests, exists_mem_requestsFrom_iff fun line hline =>
    (shaped_of_mem_writtenLines t line hline).ne_nil, ← length_writtenLines]
  omega

lemma pairwise_apart_writeTablesToSheet (tables : List TableDef) :
    ((writeTablesToSheet tables).requests.map Request.rect).Pairwise Rect.Apart := by
  rw [requests_writeTablesToSheet, map_rect_requestsFrom]
  refine pairwise_apart_stack fun line hline => ?_
  obtain ⟨cells, hcells, rfl⟩ := List.mem_map.mp hline
  obtain ⟨t, -, hcells⟩ := List.mem_flatMap.mp hcells
  rcases List.mem_append.mp hcells with hcells | hcells
  · exact (shaped_of_mem_writtenLines t cells hcells).leftToRight
  · rw [List.mem_singleton.mp hcells]
    exact List.Pairwise.nil

lemma fits_of_mem_writeTablesToSheet (tables : List TableDef) :
    ∀ r ∈ (writeTablesToSheet tables).requests, r.Fits := by
  intro r hr
  rw [requests_writeTablesToSheet] at hr
  obtain ⟨row, line, hline, c, hc, rfl⟩ := exists_request_of_mem hr
  obtain ⟨t, -, hline⟩ := List.mem_flatMap.mp hline
  rcases List.mem_append.mp hline with hline | hline
  · exact fits_request ((shaped_of_mem_writtenLines t line hline).ok c hc) row
  · rw [List.mem_singleton.mp hline] at hc
    cases hc

lemma writeTable_writeTablesToSheet (before : List TableDef) (t : TableDef) :
    (writeTablesToSheet before).writeTable t = writeTablesToSheet (before ++ [t]) := by
  rw [writeTablesToSheet, writeTablesToSheet, List.foldl_append]
  rfl

/-- The requests for the tables before a table, those for the table, and those for the tables
behind it. -/
lemma requests_split (before : List TableDef) (t : TableDef) (after : List TableDef) :
    (writeTablesToSheet (before ++ t :: after)).requests =
      (writeTablesToSheet before).requests ++ requestsFrom (topRow before) (tableLines t) ++
        requestsFrom (topRow before + height t) (after.flatMap tableLines) := by
  rw [requests_writeTablesToSheet, requests_writeTablesToSheet, List.flatMap_append,
    List.flatMap_cons, requestsFrom_append, requestsFrom_append, length_flatMap_tableLines,
    length_tableLines, Nat.zero_add, List.append_assoc]

/-- The requests never collide and fit into the ten columns. A table has the rows from the sum of
the heights of the tables before it, as many as its height; each of them is written but the last
one, which separates it from the next table. -/
theorem writeTablesToSheet_layout (tables : List TableDef) :
    ((writeTablesToSheet tables).requests.map Request.rect).Pairwise Rect.Apart ∧
      (∀ r ∈ (writeTablesToSheet tables).requests, r.Fits) ∧
      ∀ before t after, tables = before ++ t :: after →
        (writeTablesToSheet before).row = topRow before ∧
          ((writeTablesToSheet before).writeTable t).row = topRow before + height t ∧
          ∃ mine rest,
            ((writeTablesToSheet before).writeTable t).requests =
              (writeTablesToSheet before).requests ++ mine ∧
            (writeTablesToSheet tables).requests =
              (writeTablesToSheet before).requests ++ mine ++ rest ∧
            (∀ r ∈ (writeTablesToSheet before).requests, r.rect.bottom < topRow before) ∧
            (∀ k, (∃ r ∈ mine, r.rect.top = k) ↔
              topRow before ≤ k ∧ k + 1 < topRow before + height t) ∧
            ∀ r ∈ rest, topRow before + height t ≤ r.rect.top := by
  refine ⟨pairwise_apart_writeTablesToSheet tables, fits_of_mem_writeTablesToSheet tables, ?_⟩
  rintro before t after rfl
  have hrow := row_writeTablesToSheet before
  refine ⟨hrow, ?_, requestsFrom (topRow before) (tableLines t),
    requestsFrom (topRow before + height t) (after.flatMap tableLines), ?_,
    requests_split before t after, fun r hr => ?_,
    rows_requestsFrom_tableLines (topRow before) t, fun r hr => (rect_of_mem_requestsFrom hr).2.1⟩
  · rw [writeTable_writeTablesToSheet, row_writeTablesToSheet, topRow_concat]
  · rw [Sheet.writeTable_eq, Sheet.requests_writeLines, hrow]
  · rw [requests_writeTablesToSheet] at hr
    obtain ⟨hline, -, hlt⟩ := rect_of_mem_requestsFrom hr
    rwa [hline, ← length_flatMap_tableLines, ← Nat.zero_add (List.length _)]

/-- A table with one column. -/
def ordersTable : TableDef where
  tableName := "orders"
  general := { tableType := "BASE TABLE" }
  columns := [{
    columnName := "id", defaultValue := none, nullable := "NO", columnType := "bigint",
    charset := none, collation := none, columnKey := some "PRI", extra := none, comment := none }]

def totalsView : TableDef where
  tableName := "totals"
  general := { tableType := "VIEW" }

theorem writeTablesToSheet_layout_totals :
    (writeTablesToSheet [ordersTable]).row = 11 ∧
      ∃ mine rest,
        (writeTablesToSheet [ordersTable, totalsView]).requests =
          (writeTablesToSheet [ordersTable]).requests ++ mine ++ rest ∧
        ∀ k, (∃ r ∈ mine, r.rect.top = k) ↔ 11 ≤ k ∧ k + 1 < 22 := by
  have htop : topRow [ordersTable] = 11 := by decide
  have hheight : height totalsView = 11 := by decide
  obtain ⟨hrow, -, mine, rest, -, hall, -, hmine, -⟩ :=
    (writeTablesToSheet_layout [ordersTable, totalsView]).2.2
      [ordersTable] totalsView [] rfl
  rw [htop] at hrow
  rw [htop, hheight] at hmine
  exact ⟨hrow, mine, rest, hall, hmine⟩

/-- The counter stays within two rows of what is written. The program has it as a `u32`, and the
library accepts fewer rows. -/
theorem row_writeTablesToSheet_le {tables : List TableDef} {bound : ℕ}
    (h : ∀ r ∈ (writeTablesToSheet tables).requests, r.rect.top < bound) :
    (writeTablesToSheet tables).row ≤ bound + 1 := by
  rcases List.eq_nil_or_concat' tables with rfl | ⟨before, t, rfl⟩
  · exact Nat.zero_le _
  · have hheight : 2 < height t := by
      rw [height]
      omega
    -- the last row but one of the last table
    obtain ⟨r, hr, htop⟩ := (rows_requestsFrom_tableLines (topRow before) t
      (topRow before + height t - 2)).mpr (by omega)
    have hmem : r ∈ (writeTablesToSheet (before ++ [t])).requests := by
      rw [requests_split]
      exact List.mem_append_left _ (List.mem_append_right _ hr)
    have hlt := h r hmem
    rw [row_writeTablesToSheet, topRow_concat]
    omega

end TdExport.Excel
