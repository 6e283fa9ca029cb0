import TdExport.Core.Escape
import TdExport.Export.Markdown.Basic

/-!
# Reading the rows of the column table back

The escaping of `cell` is undone by `decodeCell`, up to the kind of line break, and a row is cut
into its cells at the pipes that no backslash consumes.
-/

namespace TdExport.Markdown

open Core

/-! ### The reader of a row -/

/-- Remove the escaping backslashes and turn `<br>` into a line break. -/
def decodeCell : Str → Str
  | [] => []
  | '\\' :: c :: s => c :: decodeCell s
  | '<' :: 'b' :: 'r' :: '>' :: s => '\n' :: decodeCell s
  | c :: s => c :: decodeCell s

/-- Every CRLF, CR or LF as one line feed. -/
def normalizeNewlines : Str → Str
  | [] => []
  | '\r' :: '\n' :: s => '\n' :: normalizeNewlines s
  | c :: s => (if isLineBreak c then '\n' else c) :: normalizeNewlines s

/-- The cells of a row with a pipe at either end; `none` for other text. -/
def rowCells (row : Str) : Option (List Str) :=
  match splitUnescaped '\\' '|' row with
  | [] :: cells => if cells.getLast? = some [] then some cells.dropLast else none
  | _ => none

/-- What a row shows of a column. -/
def shownValues (c : ColumnInfo) : List Str :=
  [c.columnName, c.columnType, c.nullable, c.displayDefault, c.charset.getD [],
    c.collation.getD [], c.columnKey.getD [], c.extra.getD [], c.comment.getD []]

/-! ### The escaping loop -/

lemma decodeCell_pair (c : Char) (s : Str) : decodeCell ('\\' :: c :: s) = c :: decodeCell s := by
  rw [decodeCell]

lemma decodeCell_br (s : Str) : decodeCell ("<br>" ++ s) = '\n' :: decodeCell s := by
  show decodeCell ('<' :: 'b' :: 'r' :: '>' :: s) = _
  rw [decodeCell]

lemma decodeCell_plain {c : Char} (h : isEscaped c = false) (s : Str) :
    decodeCell (c :: s) = c :: decodeCell s := by
  rw [decodeCell]
  · rintro _ _ rfl
    simp [isEscaped] at h
  · rintro _ rfl
    simp [isEscaped] at h

/-- What the loop writes for a character. -/
def escapedChar (prev : Option Char) (c : Char) : Str :=
  if isEscaped c then ['\\', c]
  else if c = '(' ∧ prev = some ']' then ['\\', '(']
  else if isLineBreak c then "<br>"
  else [c]

/-- The carriage return of a CRLF is the only character that is not written alone. -/
lemma escapeFrom_char (prev : Option Char) {c : Char} {s : Str}
    (hcrlf : ∀ s', c = '\r' → s = '\n' :: s' → False) :
    escapeFrom prev (c :: s) = escapedChar prev c ++ escapeFrom (some c) s := by
  rw [escapeFrom, escapedChar]
  · split_ifs <;> rfl
  · exact hcrlf

/-- Induction along the loop. -/
lemma escapeFrom_induction {motive : Option Char → Str → Prop} (nil : ∀ prev, motive prev [])
    (crlf : ∀ prev s, motive (some '\r') s → motive prev ('\r' :: '\n' :: s))
    (char : ∀ prev c s, (∀ s', c = '\r' → s = '\n' :: s' → False) →
      motive (some c) s → motive prev (c :: s)) (prev : Option Char) (s : Str) :
    motive prev s := by
  induction prev, s using escapeFrom.induct with
  | case1 prev => exact nil prev
  | case2 prev s ih => exact crlf prev s ih
  | case3 prev c s hcrlf _ ih => exact char prev c s hcrlf ih
  | case4 prev c s hcrlf _ _ ih => exact char prev c s hcrlf ih
  | case5 prev c s hcrlf _ _ _ ih => exact char prev c s hcrlf ih
  | case6 prev c s hcrlf _ _ _ ih => exact char prev c s hcrlf ih

lemma normalizeNewlines_char {c : Char} {s : Str}
    (hcrlf : ∀ s', c = '\r' → s = '\n' :: s' → False) :
    normalizeNewlines (c :: s) = (if isLineBreak c then '\n' else c) :: normalizeNewlines s := by
  rw [normalizeNewlines]
  exact hcrlf

lemma isLineBreak_of_isEscaped {c : Char} (h : isEscaped c = true) : isLineBreak c = false := by
  simp only [isEscaped, Bool.or_eq_true, beq_iff_eq] at h
  rcases h with (((rfl | rfl) | rfl) | rfl) | rfl <;> rfl

lemma decodeCell_escapedChar (prev : Option Char) (c : Char) (s : Str) :
    decodeCell (escapedChar prev c ++ s) =
      (if isLineBreak c then '\n' else c) :: decodeCell s := by
  unfold escapedChar
  split_ifs with hesc hbreak hparen hbreak hbreak
  · rw [isLineBreak_of_isEscaped hesc] at hbreak
    exact Bool.noConfusion hbreak
  · exact decodeCell_pair c s
  · rw [hparen.1] at hbreak
    exact absurd hbreak (by decide)
  · rw [hparen.1]
    exact decodeCell_pair '(' s
  · exact decodeCell_br s
  · exact decodeCell_plain (by simpa using hesc) s

/-- The reader undoes the escaping loop, whatever was read before. -/
lemma decodeCell_escapeFrom (prev : Option Char) (s : Str) :
    decodeCell (escapeFrom prev s) = normalizeNewlines s := by
  induction prev, s using escapeFrom_induction with
  | nil prev => rfl
  | crlf prev s ih => rw [escapeFrom, decodeCell_br, ih, normalizeNewlines]
  | char prev c s hcrlf ih =>
    rw [escapeFrom_char prev hcrlf, decodeCell_escapedChar, ih, normalizeNewlines_char hcrlf]

lemma balanced_escapedChar (prev : Option Char) (c : Char) :
    Balanced '\\' '|' (escapedChar prev c) := by
  unfold escapedChar
  split_ifs with hesc hparen hbreak
  · exact .pair .nil
  · exact .pair .nil
  · exact .of_forall (by simp)
  · refine .plain ?_ ?_ .nil <;> rintro rfl <;> simp [isEscaped] at hesc

/-- The loop leaves no pipe without a backslash. -/
lemma balanced_escapeFrom (prev : Option Char) (s : Str) :
    Balanced '\\' '|' (escapeFrom prev s) := by
  induction prev, s using escapeFrom_induction with
  | nil prev => exact .nil
  | crlf prev s ih =>
    have hbr : Balanced '\\' '|' "<br>".toList := .of_forall (by simp)
    rw [escapeFrom]
    exact hbr.append ih
  | char prev c s hcrlf ih =>
    rw [escapeFrom_char prev hcrlf]
    exact (balanced_escapedChar prev c).append ih

/-- The text is on one line. -/
def OneLine (s : Str) : Prop := ∀ c ∈ s, isLineBreak c = false

@[simp] lemma oneLine_nil : OneLine [] := by simp [OneLine]

@[simp] lemma oneLine_cons {c : Char} {s : Str} :
    OneLine (c :: s) ↔ isLineBreak c = false ∧ OneLine s := by
  simp [OneLine]

@[simp] lemma oneLine_append {s t : Str} : OneLine (s ++ t) ↔ OneLine s ∧ OneLine t := by
  simp [OneLine, or_imp, forall_and]

lemma oneLine_escapedChar (prev : Option Char) (c : Char) : OneLine (escapedChar prev c) := by
  unfold escapedChar
  split_ifs with hesc hparen hbreak
  · simp only [oneLine_cons, oneLine_nil, and_true]
    exact ⟨rfl, isLineBreak_of_isEscaped hesc⟩
  · simp [isLineBreak]
  · simp [isLineBreak]
  · simpa using hbreak

/-- The loop leaves no line break. -/
lemma oneLine_escapeFrom (prev : Option Char) (s : Str) : OneLine (escapeFrom prev s) := by
  induction prev, s using escapeFrom_induction with
  | nil prev => exact oneLine_nil
  | crlf prev s ih =>
    rw [escapeFrom, oneLine_append]
    exact ⟨by simp [isLineBreak], ih⟩
  | char prev c s hcrlf ih =>
    rw [escapeFrom_char prev hcrlf, oneLine_append]
    exact ⟨oneLine_escapedChar prev c, ih⟩

/-! ### Cells -/

/-- The loop does not change text that has nothing to escape. -/
lemma escapeFrom_eq_self {prev : Option Char} {s : Str}
    (hplain : ∀ c ∈ s, isEscaped c = false ∧ isLineBreak c = false)
    (hlink : ¬ "](".toList <:+: prev.toList ++ s) : escapeFrom prev s = s := by
  induction s generalizing prev with
  | nil => rfl
  | cons c s ih =>
    obtain ⟨hesc, hbreak⟩ := hplain c List.mem_cons_self
    have hparen : ¬ (c = '(' ∧ prev = some ']') := by
      rintro ⟨rfl, rfl⟩
      exact hlink ⟨[], s, rfl⟩
    have hrest : escapeFrom (some c) s = s := by
      refine ih (fun d hd => hplain d (List.mem_cons_of_mem _ hd)) fun hinfix => hlink ?_
      exact hinfix.trans (List.suffix_append prev.toList (c :: s)).isInfix
    have hcrlf : ∀ s', c = '\r' → s = '\n' :: s' → False := by
      rintro s' rfl
      simp [isLineBreak] at hbreak
    rw [escapeFrom_char prev hcrlf, hrest]
    simp [escapedChar, hesc, hparen, hbreak]

/-- The early exit of `cell` gives what the loop would give. -/
theorem cell_eq_escapeFrom (s : Str) : cell s = escapeFrom none s := by
  by_cases h : (!s.any (fun c => isEscaped c || isLineBreak c) && !containsStr "](" s) = true
  · rw [cell, if_pos h]
    simp only [Bool.and_eq_true, Bool.not_eq_true', List.any_eq_false, Bool.or_eq_true,
      not_or, Bool.not_eq_true] at h
    refine (escapeFrom_eq_self h.1 ?_).symm
    rw [Option.toList_none, List.nil_append, ← containsStr_iff, h.2]
    exact Bool.false_ne_true
  · rw [cell, if_neg h]

lemma decodeCell_cell (s : Str) : decodeCell (cell s) = normalizeNewlines s := by
  rw [cell_eq_escapeFrom, decodeCell_escapeFrom]

lemma normalizeNewlines_eq_self {s : Str} (h : OneLine s) :
    normalizeNewlines s = s := by
  induction s with
  | nil => rfl
  | cons c s ih =>
    obtain ⟨hc, hs⟩ := oneLine_cons.mp h
    rw [normalizeNewlines_char, hc, ih hs]
    · rfl
    · rintro s' rfl
      simp [isLineBreak] at hc

/-- On one line a cell shows all of its text. -/
lemma cell_injOn {s t : Str} (hs : OneLine s) (ht : OneLine t) (h : cell s = cell t) :
    s = t := by
  have hdecode := congrArg decodeCell h
  rwa [decodeCell_cell, decodeCell_cell, normalizeNewlines_eq_self hs,
    normalizeNewlines_eq_self ht] at hdecode

lemma balanced_cell (s : Str) : Balanced '\\' '|' (cell s) := by
  rw [cell_eq_escapeFrom]
  exact balanced_escapeFrom none s

lemma oneLine_cell (s : Str) : OneLine (cell s) := by
  rw [cell_eq_escapeFrom]
  exact oneLine_escapeFrom none s

/-! ### Rows -/

/-- A table row is cut into the cells it was made of. -/
lemma rowCells_tableRow {cells : List Str} (h : ∀ c ∈ cells, Balanced '\\' '|' c) :
    rowCells (tableRow cells) = some cells := by
  have hsplit : splitUnescaped '\\' '|' (tableRow cells) = [] :: (cells ++ [[]]) := by
    rw [tableRow, splitUnescaped_sep (by decide), splitUnescaped_row (by decide) h]
  simp [rowCells, hsplit]

lemma columnRow_eq (c : ColumnInfo) : columnRow c = tableRow ((shownValues c).map cell) := rfl

/-- A row of the column table, cut at its pipes and decoded, shows the values of the column. -/
lemma rowCells_columnRow (c : ColumnInfo) :
    (rowCells (columnRow c)).map (List.map decodeCell) =
      some ((shownValues c).map normalizeNewlines) := by
  have hcells : ∀ x ∈ (shownValues c).map cell, Balanced '\\' '|' x := by
    intro x hx
    obtain ⟨s, -, rfl⟩ := List.mem_map.mp hx
    exact balanced_cell s
  rw [columnRow_eq, rowCells_tableRow hcells, Option.map_some, List.map_map]
  congr 2
  funext s
  exact decodeCell_cell s

/-- A row of cells is on one line. -/
lemma oneLine_tableRow (values : List Str) : OneLine (tableRow (values.map cell)) := by
  refine oneLine_cons.mpr ⟨rfl, fun c hc => ?_⟩
  obtain ⟨x, hx, hc⟩ := List.mem_flatMap.mp hc
  obtain ⟨s, -, rfl⟩ := List.mem_map.mp hx
  rcases List.mem_append.mp hc with hc | hc
  · exact oneLine_cell s c hc
  · rw [List.mem_singleton.mp hc]
    rfl

/-- One line with nine cells, which decode to the values shown of the column. -/
def ReadsBack (row : Str) (c : ColumnInfo) : Prop :=
  '\n' ∉ row ∧ ∃ cells, rowCells row = some cells ∧ cells.length = 9 ∧
    cells.map decodeCell = (shownValues c).map normalizeNewlines

lemma readsBack_columnRow (c : ColumnInfo) : ReadsBack (columnRow c) c := by
  refine ⟨fun hmem => Bool.noConfusion (oneLine_tableRow (shownValues c) '\n' hmem), ?_⟩
  obtain ⟨cells, hcells, hdecode⟩ := Option.map_eq_some_iff.mp (rowCells_columnRow c)
  refine ⟨cells, hcells, ?_, hdecode⟩
  simpa [shownValues] using congrArg List.length hdecode

/-- The table of columns of a table has one line for each column, in order, and each line reads
back as its column. -/
theorem writeMarkdown_columns (u : Unicode) (schema : Str) (before after : List TableDef)
    (t : TableDef) (ht : t.general.isTable = true) :
    ∃ rows : List Str,
      writeMarkdown u schema (before ++ t :: after) =
        documentHead u schema (before ++ t :: after) ++ before.flatMap (tableSection u) ++
          sectionHeading u t ++ informationTable t ++ columnsHeading ++ rows.flatMap writeln ++
          writeln [] ++ indexSection t ++ constraintSection t ++ writeln " " ++
          after.flatMap (tableSection u) ∧
      List.Forall₂ ReadsBack rows t.columns := by
  refine ⟨t.columns.map columnRow, ?_, ?_⟩
  · simp only [writeMarkdown, tableSection, ht, if_true, List.flatMap_append, List.flatMap_cons,
      List.flatMap_map, List.append_assoc]
  · rw [List.forall₂_map_left_iff, List.forall₂_same]
    exact fun c _ => readsBack_columnRow c

/-- A table whose only column has a pipe, a tag and a line break in its comment. -/
def noteTable : TableDef where
  tableName := "Note"
  general := { tableType := "BASE TABLE" }
  columns := [{
    columnName := "id", defaultValue := none, nullable := "YES", columnType := "integer[]",
    charset := none, collation := none, columnKey := some "PRI", extra := none,
    comment := some "a | b\\\r\n<br>[x](y)" }]

theorem writeMarkdown_columns_noteTable :
    ∃ rows : List Str,
      writeMarkdown .asciiOnly "s" ([] ++ noteTable :: []) =
        documentHead .asciiOnly "s" ([] ++ noteTable :: []) ++
          [].flatMap (tableSection .asciiOnly) ++
          sectionHeading .asciiOnly noteTable ++ informationTable noteTable ++ columnsHeading ++
          rows.flatMap writeln ++ writeln [] ++ indexSection noteTable ++
          constraintSection noteTable ++ writeln " " ++
          [].flatMap (tableSection .asciiOnly) ∧
      List.Forall₂ ReadsBack rows noteTable.columns :=
  writeMarkdown_columns .asciiOnly "s" [] [] noteTable (by decide)

end TdExport.Markdown
