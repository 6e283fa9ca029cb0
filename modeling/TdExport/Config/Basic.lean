import TdExport.Model.Basic

/-!
# The settings of a run

`config.rs`: the settings come from the command line, and what it leaves open is asked for on the
terminal.
-/

namespace TdExport

open Core

/-- The values given on the command line. -/
structure CliOverrides where
  outputFormat : Option OutputFormat := none
  dbType : Option DbType := none
  endpoint : Option Str := none
  port : Option UInt16 := none
  user : Option Str := none
  database : Option Str := none
  targetDb : Option (List Str) := none
  exceptTables : Option (List Str) := none
  tls : TlsOptions := ⟨none, none⟩
  skipDefiner : Bool := false
  deriving DecidableEq, Repr

/-- The values of a list flag with `value_delimiter = ','` that is given as `s`. -/
def valueDelimiter (s : Str) : Option (List Str) := some (s.splitOn ',')

/-! ### The terminal -/

/-- `lines` holds what the prompts to come read: a line with its line break, or the text of an
error; after the last one the input is at its end. `shown` is what was printed. -/
structure Console where
  lines : List (Except Str Str)
  password : Except Str Str
  shown : Str := []

/-- A computation that uses the terminal and may fail. -/
abbrev Ask := StateT Console (Except AppError)

def print (s : Str) : Ask Unit := modify fun c => { c with shown := c.shown ++ s }

/-- Show a prompt and read a line, without the line breaks at its end. -/
def promptAndRead (prompt : Str) : Ask Str := do
  print prompt
  let c ← get
  match c.lines with
  | [] => return []
  | .error source :: _ => throw (.inputRead source)
  | .ok line :: rest =>
    set { c with lines := rest }
    return trimEndMatches ['\n', '\r'] line

/-- Read a line without showing it. -/
def readPassword : Ask Str := do
  match (← get).password with
  | .error source => throw (.inputRead source)
  | .ok password => return password

/-! ### Parsing -/

/-- `str::parse::<u32>`: digits after an optional `+`, without overflow. -/
def parseU32 (s : Str) : Option ℕ :=
  let digits := match s with
    | '+' :: rest => rest
    | _ => s
  if digits ≠ [] ∧ digits.all Char.isDigit then
    let n := Nat.ofDigitChars 10 digits 0
    if n < 2 ^ 32 then some n else none
  else none

def parsePortWithDefault (input : Str) (default : UInt16) : Except AppError UInt16 :=
  if input = [] then .ok default
  else
    match parseU32 input with
    | none => .error (.invalidPort input)
    | some n => if 1 ≤ n ∧ n ≤ 65535 then .ok (UInt16.ofNat n) else .error (.invalidPort input)

/-- The non-blank items between the commas, trimmed; `none` when there is none. -/
def parseCommaSeparated (input : Str) : Option (List Str) :=
  let items := ((input.splitOn ',').map trim).filter (· ≠ [])
  if items = [] then none else some items

def parseOutputFormatChoice (input : Str) : Except AppError OutputFormat :=
  if input = "1".toList then .ok .excel
  else if input = "2".toList then .ok .markdown
  else if input = "3".toList then .ok .sql
  else OutputFormat.fromStr input

def parseDbTypeChoice (input : Str) : Except AppError DbType :=
  if input = "1".toList then .ok .mySql
  else if input = "2".toList then .ok .postgres
  else DbType.fromStr input

/-! ### The settings -/

def resolveOutputFormat : Option OutputFormat → Ask OutputFormat
  | some format => return format
  | none => do
    print (writeln "Output Format:")
    print (writeln "  1) excel")
    print (writeln "  2) markdown (default)")
    print (writeln "  3) sql")
    let input ← promptAndRead "Choice : "
    if input = [] then return .markdown
    else parseOutputFormatChoice input

def resolveDbType : Option DbType → Ask DbType
  | some db => return db
  | none => do
    print (writeln "DB Type:")
    print (writeln "  1) mysql (default)")
    print (writeln "  2) postgres")
    let input ← promptAndRead "Choice : "
    if input = [] then return .mySql
    else parseDbTypeChoice input

/-- A setting without a default: the value of its flag, or else a line that is not empty. -/
def resolveRequired (name : Str) : Option Str → Ask Str
  | some (c :: v) => return c :: v
  | _ => do
    let v ← promptAndRead (name ++ " : ")
    if v = [] then throw (.missingInput name) else return v

def resolvePort (dbType : DbType) : Option UInt16 → Ask UInt16
  | some port => return port
  | none => do
    let input ← promptAndRead
      ("Port (default: " ++ natStr dbType.defaultPort.toNat ++ ") : ".toList)
    parsePortWithDefault input dbType.defaultPort

/-- The database is asked for with PostgreSQL only. -/
def resolveDatabase (dbType : DbType) (override : Option Str) : Ask (Option Str) :=
  match dbType with
  | .postgres => return some (← resolveRequired "Database" override)
  | .mySql => return none

/-- A list setting. The values of a flag are taken as they are. -/
def resolveList (prompt : Str) : Option (List Str) → Ask (Option (List Str))
  | some (v :: vs) => return some (v :: vs)
  | _ => return parseCommaSeparated (← promptAndRead prompt)

def targetDbPrompt : Str := "DB(Seperator , or Space(All)) : "

def exceptTablesPrompt : Str :=
  "Exception Tables(Seperator , or Space(none) / Use wildcard) : "

/-- All settings but the two lists. -/
def loadConnection (overrides : CliOverrides) : Ask RunConfig := do
  let outputFormat ← resolveOutputFormat overrides.outputFormat
  let dbType ← resolveDbType overrides.dbType
  let endpoint ← resolveRequired "Endpoint" overrides.endpoint
  let port ← resolvePort dbType overrides.port
  let user ← resolveRequired "User" overrides.user
  print "Password : "
  let password ← readPassword
  let database ← resolveDatabase dbType overrides.database
  return { endpoint, port, user, password, targetDb := none, exceptTables := none,
           outputFormat, dbType, database, tls := overrides.tls,
           skipDefiner := overrides.skipDefiner }

def loadConfig (overrides : CliOverrides) : Ask RunConfig := do
  let config ← loadConnection overrides
  let targetDb ← resolveList targetDbPrompt overrides.targetDb
  let exceptTables ← resolveList exceptTablesPrompt overrides.exceptTables
  return { config with targetDb, exceptTables }

end TdExport
