import TdExport.Model.Basic

/-!
# Columns of MySQL

`db/mysql.rs`: how a row of `information_schema.COLUMNS` becomes a column of the model.
-/

namespace TdExport.MySql

open Core

/-! ### Default values -/

/-- One character of `quote_string_literal`. -/
def literalChar (c : Char) : Str :=
  if c = '\\' then ['\\', '\\']
  else if c = '\'' then ['\'', '\'']
  else if c = '\n' then ['\\', 'n']
  else if c = '\r' then ['\\', 'r']
  else if c = '\x00' then ['\\', '0']
  else if c = '\x1a' then ['\\', 'Z']
  else [c]

def quoteStringLiteral (value : Str) : Str := '\'' :: (replaceChars literalChar value ++ ['\''])

/-- The character for which `c` stands behind a backslash. -/
def unescapeChar (c : Char) : Char :=
  if c = 'n' then '\n'
  else if c = 'r' then '\r'
  else if c = 't' then '\t'
  else if c = '0' then '\x00'
  else if c = 'Z' then '\x1a'
  else if c = 'b' then '\x08'
  else c

/-- Take one level of backslash escapes away. -/
def unescapeOneLevel : Str → Str
  | [] => []
  | ['\\'] => ['\\']
  | '\\' :: c :: s => unescapeChar c :: unescapeOneLevel s
  | c :: s => c :: unescapeOneLevel s

/-- The name of the type, in lower case, without its arguments. -/
def baseType (columnType : Str) : Str :=
  toAsciiLowercase (columnType.takeWhile fun c => c ≠ '(' ∧ c ≠ ' ')

def isStringType (base : Str) : Bool :=
  ([ "char", "varchar", "binary", "varbinary", "tinytext", "text", "mediumtext", "longtext",
    "enum", "set" ] : List Str).contains base

def isTemporalType (base : Str) : Bool :=
  (["date", "time", "datetime", "timestamp"] : List Str).contains base

def isAsciiHexDigit (c : Char) : Bool :=
  c.isDigit || (97 ≤ c.toNat && c.toNat ≤ 102) || (65 ≤ c.toNat && c.toNat ≤ 70)

/-- A hexadecimal literal such as `0x6162`. -/
def isHexLiteral : Str → Bool
  | '0' :: 'x' :: hex => !hex.isEmpty && hex.all isAsciiHexDigit
  | _ => false

/-- The raw default as `SHOW CREATE TABLE` writes it. -/
def quoteLiteralDefault (default : Option Str) (columnType : Str) (extra : Option Str) :
    Option Str :=
  default.map fun value =>
    let base := baseType columnType
    if extra.any (containsStr "DEFAULT_GENERATED") then unescapeOneLevel value
    else if (base = "binary".toList ∨ base = "varbinary".toList) ∧ isHexLiteral value then value
    else
      let isCurrentTimestamp :=
        isTemporalType base && "CURRENT_TIMESTAMP".toList.isPrefixOf (toAsciiUppercase value)
      if (isStringType base || isTemporalType base) && !isCurrentTimestamp then
        quoteStringLiteral value
      else value

/-! ### Columns -/

/-- A row of the query of `get_columns`. -/
structure ColumnRow where
  columnName : Str
  columnDefault : Option Str
  isNullable : Str
  columnType : Str
  characterSetName : Option Str
  collationName : Option Str
  columnKey : Option Str
  extra : Option Str
  generationExpression : Option Str
  columnComment : Option Str
  deriving DecidableEq, Repr

/-- The extra text, with the expression of a generated column behind it. -/
def ColumnRow.extraCombined (row : ColumnRow) : Option Str :=
  match row.extra, row.generationExpression with
  | some e, some g => if g = [] then some e else some (e ++ " " ++ g)
  | some e, none => some e
  | none, some g => if g = [] then none else some g
  | none, none => none

/-- One turn of the loop of `get_columns`. -/
def ColumnRow.column (isMariadb : Bool) (row : ColumnRow) : ColumnInfo where
  columnName := row.columnName
  defaultValue :=
    if isMariadb then row.columnDefault
    else quoteLiteralDefault row.columnDefault row.columnType row.extraCombined
  nullable := row.isNullable
  columnType := row.columnType
  charset := row.characterSetName
  collation := row.collationName
  columnKey := row.columnKey
  extra := row.extraCombined
  comment := row.columnComment

end TdExport.MySql
