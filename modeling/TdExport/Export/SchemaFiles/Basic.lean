import TdExport.Core.FileSystem
import TdExport.Core.SortedMap
import TdExport.Export.Filename.Basic

/-!
# Files of schemas

`export/mod.rs`: the files of a run are opened before any is written. Opening always succeeds here.
-/

namespace TdExport

open Core

/-- Where the program runs. -/
inductive Platform where
  | unix
  | other
  deriving DecidableEq, Repr

/-- What tells a file from others; nothing does when the platform is not Unix. -/
def fileId {ι : Type} (platform : Platform) (file : ι) : Option ι :=
  match platform with
  | .unix => some file
  | .other => none

/-- The state of the loop that opens a file for a schema: the name, the file, and the directory. -/
structure Reopening (κ ι : Type) where
  name : Str
  file : ι
  dir : Directory κ ι

/-- The state of a run: the directory, the files that are open, and the name and the file of each
schema. -/
structure SchemaFiles (κ ι : Type) where
  dir : Directory κ ι
  opened : Finset ι := ∅
  files : SortedMap Str (Str × ι) := ∅

section

variable {κ ι : Type} [DecidableEq κ] [DecidableEq ι]
variable (platform : Platform) (fs : FileSystem κ ι) (u : CaseTables) (o : Overflow)
  (hash : Str → UInt64) (source extn : Str)

/-- The file is one that is open already. -/
def isOpened (opened : Finset ι) (file : ι) : Bool := (fileId platform file).any (· ∈ opened)

/-- Open a file with the next name. -/
def reopen (schema : Str) (s : Reopening κ ι) (n : ℤ) : Reopening κ ι :=
  let name := schemaFilename hash (schema ++ "~" ++ intStr n) source extn
  let file := fs.openFile s.dir name
  ⟨name, file.1, file.2⟩

/-- Open the file of a schema; `none` when the number leaves its range or more turns are needed. -/
def openSchemaFile (turns : ℕ) (st : SchemaFiles κ ι) (entry : Str × Str) :
    Option (SchemaFiles κ ι) := do
  let file := fs.openFile st.dir entry.2
  let (s, _) ← o.count (fun s => isOpened platform st.opened s.file)
    (reopen fs hash source extn entry.1) turns ⟨entry.2, file.1, file.2⟩
  return {
    dir := s.dir
    opened := (fileId platform s.file).elim st.opened fun id => insert id st.opened
    files := st.files.insert entry.1 (s.name, s.file) }

/-- The name and the file of each schema, and the directory in the end. -/
def createSchemaFiles (turns : ℕ) (dir : Directory κ ι) (schemas : List Str) :
    Option (SchemaFiles κ ι) := do
  let names ← schemaFilenames u o hash source extn turns schemas
  names.foldlM (openSchemaFile platform fs o hash source extn turns) { dir }

end

end TdExport
