import TdExport.Core.Counter
import TdExport.Model.Lowercase

/-!
# Names of worksheets

`export/excel.rs`: the names of the sheets of a workbook, one for each schema. The number that tells
equal names apart is an `i32`.
-/

namespace TdExport.Excel

open Core

/-! ### One name -/

def maxSheetNameChars : ℕ := 31

/-- The characters that no name of a sheet contains. -/
def isReplaced (c : Char) : Bool := "*?:[]\\/".toList.contains c

/-- Put `_` for an apostrophe at index `i`. -/
def replaceQuote (chars : Str) (i : ℕ) : Str :=
  if chars[i]? = some '\'' then chars.set i '_' else chars

def sanitizeSheetName (name : Str) (maxChars : ℕ) : Str :=
  let chars := (name.map fun c => if isReplaced c then '_' else c).take maxChars
  let chars := if chars.isEmpty then chars ++ ['_'] else chars
  let last := chars.length - 1
  [0, last].foldl replaceQuote chars

/-! ### The names of a workbook -/

section Names

variable (u : CaseTables) (o : Overflow)

/-- The name with number `n`. -/
def numberedName (schema : Str) (n : ℤ) : Str :=
  let tail := "~" ++ intStr n
  sanitizeSheetName schema (maxSheetNameChars - utf8Len tail) ++ tail

/-- The name of the sheet of a schema, given the lower-case names that are used; `none` when the
search panics or needs more retries. -/
def sheetName (retries : ℕ) (schema : Str) (used : Finset Str) : Option Str :=
  (o.count (fun name => u.toLowercase name ∈ used) (fun _ n => numberedName schema n) retries
    (sanitizeSheetName schema maxSheetNameChars)).map Prod.fst

/-- The names of the sheets, one after the other. `retries` allows for each search a number of
retries, by the number of names that are used. -/
def assignSheetNames (retries : ℕ → ℕ) : Finset Str → List Str → Option (List Str)
  | _, [] => some []
  | used, schema :: schemas => do
    let name ← sheetName u o (retries used.card) schema used
    let names ← assignSheetNames retries (insert (u.toLowercase name) used) schemas
    return name :: names

/-- The names of the sheets of all schemas, in the order of the schemas. -/
def sheetNames (retries : ℕ → ℕ) (schemas : List Str) : Option (List Str) :=
  assignSheetNames u o retries ∅ schemas

end Names

end TdExport.Excel
