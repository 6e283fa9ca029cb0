import TdExport.Model.Basic

/-!
# Reading index definitions

`db/postgres/parse.rs`. Where the source passes positions in the definition, the model passes the
texts that lie between them.
-/

namespace TdExport.Postgres

open Core

/-- What is read from the definition of an index; `included` is the list after `INCLUDE`. -/
structure ParsedIndex where
  isUnique : Bool
  columns : Str
  predicate : Option Str
  included : Option Str
  method : Option Str
  deriving DecidableEq, Repr

/-- The text up to the parenthesis that closes the `depth` open ones, and the text after it. -/
def columnBlockFrom : ℤ → Str → Option (Str × Str)
  | _, [] => none
  | depth, c :: s =>
    if c = '(' then (columnBlockFrom (depth + 1) s).map fun p => (c :: p.1, p.2)
    else if c = ')' then
      if depth - 1 = 0 then some ([], s)
      else (columnBlockFrom (depth - 1) s).map fun p => (c :: p.1, p.2)
    else (columnBlockFrom depth s).map fun p => (c :: p.1, p.2)

/-- `find_column_block`: the inside of the column block and the text after it. The block starts at
the first parenthesis after `USING`. -/
def findColumnBlock (indexdef : Str) : Option (Str × Str) :=
  let head :=
    match find "USING" (toAsciiUppercase indexdef) with
    | some pos => indexdef.drop pos
    | none => indexdef
  match head.dropWhile (· ≠ '(') with
  | [] => none
  | _ :: s => columnBlockFrom 1 s

/-- The loop of `split_top_level_commas`; `current` is the piece that is being read. -/
def splitTopLevelCommasFrom : ℤ → Str → Str → List Str
  | _, current, [] => if current = [] then [] else [current]
  | depth, current, c :: s =>
    if c = '(' then splitTopLevelCommasFrom (depth + 1) (current ++ [c]) s
    else if c = ')' then splitTopLevelCommasFrom (depth - 1) (current ++ [c]) s
    else if c = ',' ∧ depth = 0 then current :: splitTopLevelCommasFrom depth [] s
    else splitTopLevelCommasFrom depth (current ++ [c]) s

/-- Split at the commas outside parentheses. -/
def splitTopLevelCommas (s : Str) : List Str := splitTopLevelCommasFrom 0 [] s

/-- A key column without `ASC`; an expression stays as it is. -/
def cleanIndexColumn (colExpr : Str) : Str :=
  if '(' ∈ colExpr then colExpr
  else [' '].intercalate
    ((splitWhitespace colExpr).filter fun token => toAsciiUppercase token ≠ "ASC".toList)

def extractColumnsFromBlock (inner : Str) : Str :=
  (", ".toList).intercalate ((splitTopLevelCommas inner).map fun col => cleanIndexColumn (trim col))

/-- The quotation mark that is open behind the character `c`. -/
def quoteAfter (quote : Option Char) (c : Char) : Option Char :=
  match quote with
  | some q => if c = q then none else some q
  | none => if c = '"' ∨ c = '\'' then some c else none

/-- `closing_paren`: the text up to the parenthesis that closes the `depth` open ones, and the text
after it. Parentheses in quotes do not count. -/
def closingParen : ℤ → Option Char → Str → Option (Str × Str)
  | _, _, [] => none
  | depth, quote, c :: s =>
    if quote = none ∧ c = '(' then
      (closingParen (depth + 1) none s).map fun p => (c :: p.1, p.2)
    else if quote = none ∧ c = ')' then
      if depth - 1 = 0 then some ([], s)
      else (closingParen (depth - 1) none s).map fun p => (c :: p.1, p.2)
    else (closingParen depth (quoteAfter quote c) s).map fun p => (c :: p.1, p.2)

/-- The list of `INCLUDE (...)` at the start of `afterBlock`, and the text that follows. -/
def splitInclude (afterBlock : Str) : Option Str × Str :=
  let trimmed := trimStart afterBlock
  if "INCLUDE (".toList <+: toAsciiUppercase trimmed then
    match closingParen 1 none (trimmed.drop "INCLUDE (".length) with
    | some (inside, rest) => (some (trim inside), rest)
    | none => (none, afterBlock)
  else (none, afterBlock)

/-- The loop of `extract_where_clause`. -/
def extractWhereClauseFrom : ℤ → Bool → Str → Option Str
  | _, _, [] => none
  | depth, prevIsSpace, c :: s =>
    if c = '(' then extractWhereClauseFrom (depth + 1) (isWhitespace c) s
    else if c = ')' then extractWhereClauseFrom (depth - 1) (isWhitespace c) s
    else if depth = 0 ∧ prevIsSpace ∧ "WHERE ".toList <+: toAsciiUppercase (c :: s) then
      let pred := trim ((c :: s).drop "WHERE ".length)
      if pred = [] then none else some pred
    else extractWhereClauseFrom depth (isWhitespace c) s

/-- The predicate: the text after the first `WHERE` outside parentheses. -/
def extractWhereClause (afterBlock : Str) : Option Str := extractWhereClauseFrom 0 true afterBlock

def parsePgIndexdef (indexdef : Str) : ParsedIndex :=
  let method := (splitOnce "USING " (toAsciiUppercase indexdef)).bind fun p =>
    (splitWhitespace p.2).head?
  let isUnique := "CREATE UNIQUE INDEX".toList.isPrefixOf (toAsciiUppercase indexdef)
  match findColumnBlock indexdef with
  | some (inner, afterBlock) =>
    let (included, rest) := splitInclude afterBlock
    { isUnique, columns := extractColumnsFromBlock inner,
      predicate := extractWhereClause rest, included, method }
  | none => { isUnique, columns := [], predicate := none, included := none, method }

/-- The loop of `without_on_only`; `quote` is the quotation mark that is open. -/
def withoutOnOnlyFrom : Option Char → Str → Str
  | _, [] => []
  | quote, c :: s =>
    if quote = none ∧ " ON ONLY ".toList <+: c :: s then
      " ON ".toList ++ (c :: s).drop " ON ONLY ".length
    else c :: withoutOnOnlyFrom (quoteAfter quote c) s

/-- The definition with the first ` ON ONLY ` outside quotes made ` ON `. -/
def withoutOnOnly (indexdef : Str) : Str := withoutOnOnlyFrom none indexdef

end TdExport.Postgres
