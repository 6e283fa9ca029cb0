import TdExport.Model.Basic

/-!
# The Markdown document of a schema

`export/markdown.rs`. The document is the text that `write_markdown` writes when no write fails.
-/

namespace TdExport

open Core

namespace Markdown

/-! ### Cells -/

/-- The characters that `cell` escapes wherever they stand. -/
def isEscaped (c : Char) : Bool :=
  c == '\\' || c == '|' || c == '`' || c == '*' || c == '<'

def isLineBreak (c : Char) : Bool := c == '\r' || c == '\n'

/-- The escaping loop of `cell`. `prev` is the character read last. -/
def escapeFrom : Option Char → Str → Str
  | _, [] => []
  -- a carriage return takes the line feed after it with it
  | _, '\r' :: '\n' :: s => "<br>" ++ escapeFrom (some '\r') s
  | prev, c :: s =>
    if isEscaped c then '\\' :: c :: escapeFrom (some c) s
    else if c = '(' ∧ prev = some ']' then '\\' :: '(' :: escapeFrom (some c) s
    else if isLineBreak c then "<br>" ++ escapeFrom (some c) s
    else c :: escapeFrom (some c) s

/-- Escape what would break a table cell or be read as formatting. -/
def cell (s : Str) : Str :=
  if !s.any (fun c => isEscaped c || isLineBreak c) && !containsStr "](" s then s
  else escapeFrom none s

/-- An optional value, shown as an empty cell when it is missing. -/
def optCell (s : Option Str) : Str := cell (s.getD [])

/-- `|a|b|…|` -/
def tableRow (cells : List Str) : Str := '|' :: cells.flatMap (· ++ ['|'])

/-! ### Views -/

/-- The longest run of backticks; `cur` is the length of the run that is being read. -/
def longestRunFrom (maxRun cur : ℕ) : Str → ℕ
  | [] => maxRun
  | '`' :: s => longestRunFrom (max maxRun (cur + 1)) (cur + 1) s
  | _ :: s => longestRunFrom maxRun 0 s

def longestBacktickRun (s : Str) : ℕ := longestRunFrom 0 0 s

/-- The query of a view as a fenced code block. -/
def writeViewFencedSql (sql : Str) : Str :=
  let fence := List.replicate (max 3 (longestBacktickRun sql + 1)) '`'
  writeln [] ++ writeln (fence ++ "sql") ++
    (if sql.getLast? = some '\n' then sql else writeln sql) ++ writeln fence

/-! ### Sections of a table -/

variable (u : Unicode) (t : TableDef)

/-- The line of a table in the table list, and the blank that begins the next line. -/
def listEntry : Str :=
  writeln ("- [" ++ t.tableName ++ " (" ++ optCell t.general.comment ++ ")](#" ++
    u.toLowercase t.tableName ++ ")") ++ " "

/-- The heading of a section and, of a table, its general information. -/
def sectionHeading : Str :=
  writeln ("## " ++ u.toLowercase t.tableName) ++ writeln "**Information**"

def informationTable : Str :=
  writeln "|Table type|Engine|Row format|Collate|Comment|" ++ writeln "|---|---|---|---|---|" ++
    writeln (tableRow [cell t.general.tableType, optCell t.general.engine,
      optCell t.general.rowFormat, optCell t.general.collate, optCell t.general.comment]) ++
    writeln []

def columnsHeading : Str :=
  writeln "**Columns**" ++
    writeln "|Name|Type|Nullable|Default|Charset|Collation|Key|Extra|Comment|" ++
    writeln "|---|---|---|---|---|---|---|---|---|"

/-- The row of a column in the table of columns. -/
def columnRow (c : ColumnInfo) : Str :=
  tableRow [cell c.columnName, cell c.columnType, cell c.nullable, cell c.displayDefault,
    optCell c.charset, optCell c.collation, optCell c.columnKey, optCell c.extra,
    optCell c.comment]

/-- A clause of an index, left out when it has no value. -/
def optClause (before after : Str) : Option Str → Str
  | some s => before ++ cell s ++ after
  | none => []

def indexLine (i : IndexInfo) : Str :=
  writeln ("- [" ++ i.kindLabel ++ "]" ++ cell i.indexName ++ "(" ++ cell i.indexColumns ++ ")" ++
    optClause " INCLUDE (" ")" i.includeColumns ++ optClause " WHERE " "" i.predicate)

def indexSection : Str :=
  if t.indexes = [] then []
  else writeln "**Index**" ++ t.indexes.flatMap indexLine ++ writeln []

def constraintLine (c : ConstInfo) : Str :=
  writeln ("- " ++ cell c.constraintName ++ " FOREIGN KEY (" ++ cell c.constraintColumn ++
    ") Reference " ++ cell c.reference ++ " ON DELETE " ++ c.deleteAction ++ " ON UPDATE " ++
    c.updateAction)

def constraintSection : Str :=
  if t.constraints = [] then []
  else writeln "**Constraint**" ++ t.constraints.flatMap constraintLine ++ writeln []

def viewSection : Str :=
  writeln "|Table type|Charset|Collate|" ++ writeln "|---|---|---|" ++
    (match t.view with
      | some view => writeln (tableRow [cell t.general.tableType, cell view.charset,
          cell view.collate])
      | none => writeln ("|" ++ t.general.tableType ++ "||  |")) ++
    writeln [] ++ writeln "**View Create SQL**" ++
    (match t.view with
      | some view => writeViewFencedSql view.viewQuery
      | none => [])

/-- The section of a table or view. -/
def tableSection : Str :=
  sectionHeading u t ++
    (if t.general.isTable then
      informationTable t ++ columnsHeading ++ t.columns.flatMap (fun c => writeln (columnRow c)) ++
        writeln [] ++ indexSection t ++ constraintSection t
    else if t.general.isView then viewSection t
    else []) ++
    writeln " "

/-- The title of the document and its list of tables. -/
def documentHead (schema : Str) (tables : List TableDef) : Str :=
  writeln (schema ++ " ") ++ writeln "=============" ++ writeln [] ++ writeln "## Table List" ++
    tables.flatMap (listEntry u) ++ writeln []

def writeMarkdown (schema : Str) (tables : List TableDef) : Str :=
  documentHead u schema tables ++ tables.flatMap (tableSection u)

end Markdown

end TdExport
