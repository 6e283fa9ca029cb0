import TdExport.Core.Counter
import TdExport.Model.Lowercase

/-!
# Names of output files

`export/mod.rs`: the name of the file of a schema, and the names of all files of a run. The hash of
the standard library is a parameter. The number that tells equal names apart is an `i32`.
-/

namespace TdExport

open Core

/-! ### One name -/

/-- The characters that no file name contains. -/
def isForbidden (c : Char) : Bool := "/\\:*?\"<>|".toList.contains c || isControl c

def sanitizeFilenamePart (part : Str) : Str := part.map fun c => if isForbidden c then '_' else c

/-- What is compared to the device names: the text before the first `.`. -/
def device (stem : Str) : Str := toAsciiUppercase (trimEnd (stem.takeWhile (· ≠ '.')))

/-- `CON`, `PRN`, `AUX`, `NUL`, or `COM` or `LPT` with a digit. In four bytes of which three are
ASCII the byte at index 3 is a character. -/
def isDeviceName (device : Str) : Bool :=
  (["CON", "PRN", "AUX", "NUL"] : List Str).contains device ||
    (utf8Len device == 4 && ("COM".toList.isPrefixOf device || "LPT".toList.isPrefixOf device) &&
      device[3]?.any Char.isDigit)

def isDevice (stem : Str) : Bool := isDeviceName (device stem)

def maxFilenameBytes : ℕ := 255

/-- Go down from `cut` to the start of a character. -/
def toCharBoundary (s : Str) : ℕ → ℕ
  | 0 => 0
  | cut + 1 => if isCharBoundary s (cut + 1) then cut + 1 else toCharBoundary s cut

/-- `{stem}.{extension}`; the name of a device gets a `_` in front, and what is longer than a file
name may be is cut and marked with its hash. -/
def fitFilename (hash : Str → UInt64) (stem extn : Str) : Str :=
  let stem := if isDevice stem then "_" ++ stem else stem
  let name := stem ++ "." ++ extn
  if utf8Len name ≤ maxFilenameBytes then name
  else
    let suffix := "~" ++ hexDigits 16 (hash stem).toNat ++ "." ++ extn
    let cut := toCharBoundary stem (maxFilenameBytes - utf8Len suffix)
    sliceTo stem cut ++ suffix

/-- `{schema}({source}).{extension}` -/
def schemaFilename (hash : Str → UInt64) (schema source extn : Str) : Str :=
  fitFilename hash (sanitizeFilenamePart schema ++ "(" ++ sanitizeFilenamePart source ++ ")") extn

/-- `{schema}({source}).cross-schema-fk.sql` -/
def crossSchemaFilename (hash : Str → UInt64) (schemaFile : Str) : Str :=
  let stem := (stripSuffix ".sql" schemaFile).getD schemaFile
  fitFilename hash (stem ++ ".cross-schema-fk") "sql"

/-! ### The names of a run -/

section Run

variable (u : CaseTables) (o : Overflow) (hash : Str → UInt64) (source extn : Str)

/-- The name of a schema, given the lower-case names that are used, and the next number; `none` when
the search panics or needs more turns. -/
def freeName (turns : ℕ) (schema : Str) (used : Finset Str) : Option (Str × ℤ) :=
  o.count (fun name => u.toLowercase name ∈ used)
    (fun _ n => schemaFilename hash (schema ++ "~" ++ intStr n) source extn) turns
    (schemaFilename hash schema source extn)

/-- The names of the schemas, one after the other, each with the next number of its search. -/
def assignNames (turns : ℕ) : Finset Str → List Str → Option (List (Str × Str × ℤ))
  | _, [] => some []
  | used, schema :: schemas => do
    let (name, n) ← freeName u o hash source extn turns schema used
    let names ← assignNames turns (insert (u.toLowercase name) used) schemas
    return (schema, name, n) :: names

/-- The searches for the names of all schemas, in the order of the schemas. -/
def searchNames (turns : ℕ) (schemas : List Str) : Option (List (Str × Str × ℤ)) :=
  assignNames u o hash source extn turns ∅ (schemas.insertionSort (· ≤ ·))

/-- The names of the files of all schemas. -/
def schemaFilenames (turns : ℕ) (schemas : List Str) : Option (List (Str × Str)) :=
  (searchNames u o hash source extn turns schemas).map (List.map fun p => (p.1, p.2.1))

end Run

end TdExport
