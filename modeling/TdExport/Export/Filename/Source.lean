import TdExport.Export.Filename.Text

/-!
# The source in the names of files

The text for the server and the database in the name of a file, and which configurations of one
server get different names. The characters that no file name contains are replaced after the parts
of the text are put together.
-/

namespace TdExport

open Core

/-! ### The source -/

/-- `{endpoint}[_{port}][@{database}]` -/
def sourceLabel (config : RunConfig) : Str :=
  let label := config.endpoint
  let label :=
    if config.port ≠ config.dbType.defaultPort then label ++ "_" ++ natStr config.port.toNat
    else label
  match config.database with
  | some database => label ++ "@" ++ database
  | none => label

/-- `{source}.xlsx` -/
def workbookFilename (hash : Str → UInt64) (source : Str) : Str :=
  fitFilename hash (sanitizeFilenamePart source) "xlsx"

/-- A database is named with PostgreSQL, and only with PostgreSQL. -/
def NamesDatabase (config : RunConfig) : Prop :=
  config.database.isSome = true ↔ config.dbType = .postgres

/-- The stems of the two files, with the `_` of a device name. -/
def schemaStem (schema source : Str) : Str :=
  protectDevice (sanitizeFilenamePart schema ++ "(" ++ sanitizeFilenamePart source ++ ")")

def workbookStem (source : Str) : Str := protectDevice (sanitizeFilenamePart source)

instance (extn stem : Str) : Decidable (Fits extn stem) :=
  inferInstanceAs (Decidable (utf8Len (stem ++ "." ++ extn) ≤ maxFilenameBytes))

/-- No name is cut. -/
def Uncut (schema extn : Str) (config : RunConfig) : Prop :=
  Fits extn (schemaStem schema (sourceLabel config)) ∧
    Fits "xlsx" (workbookStem (sourceLabel config))

/-! ### The parts of the source -/

def portText (config : RunConfig) : Str :=
  if config.port ≠ config.dbType.defaultPort then '_' :: natStr config.port.toNat else []

/-- The database behind its mark, as it stands in the names of files. -/
def databaseText (config : RunConfig) : Str :=
  match config.database.map sanitizeFilenamePart with
  | some database => '@' :: database
  | none => []

variable {c c' : RunConfig}

lemma mem_portText {d : Char} (h : d ∈ portText c) : d = '_' ∨ d.isDigit = true := by
  rw [portText] at h
  split_ifs at h
  · exact (List.mem_cons.mp h).imp id isDigit_of_mem_natStr
  · cases h

lemma sourceLabel_eq (c : RunConfig) :
    sourceLabel c = c.endpoint ++ (portText c ++ (c.database.map ('@' :: ·)).getD []) := by
  rw [sourceLabel, portText]
  split_ifs <;> cases c.database <;> simp

lemma sanitizeFilenamePart_sourceLabel (c : RunConfig) :
    sanitizeFilenamePart (sourceLabel c) =
      sanitizeFilenamePart c.endpoint ++ (portText c ++ databaseText c) := by
  have hport : sanitizeFilenamePart (portText c) = portText c := by
    apply sanitizeFilenamePart_of_forall
    intro d hd
    rcases mem_portText hd with rfl | hdigit
    · decide
    · exact isForbidden_of_isDigit hdigit
  have hdatabase : sanitizeFilenamePart ((c.database.map ('@' :: ·)).getD []) = databaseText c := by
    rw [databaseText]
    cases c.database with
    | none => rfl
    | some database => rfl
  rw [sourceLabel_eq, sanitizeFilenamePart_append, sanitizeFilenamePart_append, hport, hdatabase]

/-- The port is what stands before the `@`. -/
lemma takeWhile_portText (c : RunConfig) :
    (portText c ++ databaseText c).takeWhile (· ≠ '@') = portText c := by
  have hport : ∀ d ∈ portText c, decide (d ≠ '@') = true := by
    intro d hd
    rw [decide_eq_true_eq]
    rintro rfl
    rcases mem_portText hd with h | h
    · exact absurd h (by decide)
    · exact absurd h (by decide)
  rw [List.takeWhile_append_of_pos hport, databaseText]
  cases c.database <;> simp

lemma portText_inj (hdb : c.dbType = c'.dbType) :
    portText c = portText c' ↔ c.port = c'.port := by
  refine ⟨fun h => ?_, fun h => by rw [portText, portText, hdb, h]⟩
  rw [portText, portText, hdb] at h
  split_ifs at h with hc hc' hc'
  · have hnat := natStr_injective (List.cons.inj h).2
    exact UInt16.toNat_inj.mp hnat
  · rw [not_not.mp hc, not_not.mp hc']

lemma databaseText_inj :
    databaseText c = databaseText c' ↔
      c.database.map sanitizeFilenamePart = c'.database.map sanitizeFilenamePart := by
  rw [databaseText, databaseText]
  cases c.database.map sanitizeFilenamePart <;> cases c'.database.map sanitizeFilenamePart <;> simp

/-- The source tells the port and the database as it stands in the names of files. -/
lemma sanitizeFilenamePart_sourceLabel_inj (hendpoint : c.endpoint = c'.endpoint)
    (hdb : c.dbType = c'.dbType) :
    sanitizeFilenamePart (sourceLabel c) = sanitizeFilenamePart (sourceLabel c') ↔
      c.port = c'.port ∧
        c.database.map sanitizeFilenamePart = c'.database.map sanitizeFilenamePart := by
  rw [sanitizeFilenamePart_sourceLabel, sanitizeFilenamePart_sourceLabel, hendpoint,
    List.append_cancel_left_eq, ← portText_inj hdb, ← databaseText_inj]
  constructor
  · intro h
    have hport := congrArg (List.takeWhile (· ≠ '@')) h
    rw [takeWhile_portText, takeWhile_portText] at hport
    rw [hport] at h
    exact ⟨hport, List.append_cancel_left h⟩
  · rintro ⟨hport, hdatabase⟩
    rw [hport, hdatabase]

/-! ### The names -/

lemma schemaFilename_of_fits {hash : Str → UInt64} {schema source extn : Str}
    (h : Fits extn (schemaStem schema source)) :
    schemaFilename hash schema source extn = schemaStem schema source ++ "." ++ extn := by
  rw [schemaFilename, fitFilename_eq, ← schemaStem, fileBase_of_fits h]

lemma workbookFilename_of_fits {hash : Str → UInt64} {source : Str}
    (h : Fits "xlsx" (workbookStem source)) :
    workbookFilename hash source = workbookStem source ++ "." ++ "xlsx" := by
  rw [workbookFilename, fitFilename_eq, ← workbookStem, fileBase_of_fits h]

lemma schemaStem_inj (schema source source' : Str) :
    schemaStem schema source = schemaStem schema source' ↔
      sanitizeFilenamePart source = sanitizeFilenamePart source' := by
  have hstem : ∀ s, schemaStem schema s = fileText schema ++ sourceText s := by
    intro s
    have h := protectDevice_numbered s schema 0
    rw [numbered, numberTail, List.append_nil] at h
    rw [schemaStem, h, candidateStem, numberTail, List.append_nil]
  rw [hstem, hstem, List.append_cancel_left_eq, sourceText, sourceText]
  simp

/-- A mark at the start makes no device name. -/
lemma isDevice_of_head {d : Char} (hd : d = '_' ∨ d = '@') (s : Str) :
    isDevice (d :: s) = false := by
  have hmem : d ∈ (d :: s).takeWhile (· ≠ '.') := by
    rcases hd with rfl | rfl <;> simp
  rcases hd with rfl | rfl
  · exact isDevice_eq_false_of_mem hmem (by decide) (by decide)
  · exact isDevice_eq_false_of_mem hmem (by decide) (by decide)

lemma labelTail_eq (c : RunConfig) :
    portText c ++ databaseText c = [] ∨
      ∃ d s, portText c ++ databaseText c = d :: s ∧ (d = '_' ∨ d = '@') := by
  rw [portText, databaseText]
  split_ifs
  · exact .inr ⟨_, _, rfl, .inl rfl⟩
  · cases c.database with
    | none => exact .inl rfl
    | some database => exact .inr ⟨_, _, rfl, .inr rfl⟩

/-- With the same endpoint the `_` of a device name makes no other source. -/
lemma cons_ne_of_isDevice (hendpoint : c.endpoint = c'.endpoint)
    (h : isDevice (sanitizeFilenamePart (sourceLabel c)) = true) :
    '_' :: sanitizeFilenamePart (sourceLabel c) ≠ sanitizeFilenamePart (sourceLabel c') := by
  rw [sanitizeFilenamePart_sourceLabel] at h ⊢
  rw [sanitizeFilenamePart_sourceLabel, ← hendpoint]
  intro heq
  cases hstart : sanitizeFilenamePart c.endpoint with
  | nil =>
    rw [hstart, List.nil_append] at h
    obtain htail | ⟨d, s, htail, hd⟩ := labelTail_eq c
    · rw [htail] at h
      exact absurd h (by decide)
    · rw [htail, isDevice_of_head hd] at h
      cases h
  | cons d s =>
    rw [hstart, List.cons_append, List.cons_append] at heq
    obtain ⟨rfl, -⟩ := List.cons.inj heq
    rw [hstart, List.cons_append, isDevice_of_head (.inl rfl)] at h
    cases h

lemma workbookStem_inj (hendpoint : c.endpoint = c'.endpoint) :
    workbookStem (sourceLabel c) = workbookStem (sourceLabel c') ↔
      sanitizeFilenamePart (sourceLabel c) = sanitizeFilenamePart (sourceLabel c') := by
  refine ⟨fun h => ?_, fun h => by rw [workbookStem, workbookStem, h]⟩
  rw [workbookStem, workbookStem, protectDevice, protectDevice] at h
  split_ifs at h with hc hc' hc'
  · exact List.append_cancel_left h
  · exact absurd h (cons_ne_of_isDevice hendpoint hc)
  · exact absurd h.symm (cons_ne_of_isDevice hendpoint.symm hc')
  · exact h

/-- Two configurations of one server, with names that are not cut. -/
structure SameServer (schema extn : Str) (c c' : RunConfig) : Prop where
  endpoint : c.endpoint = c'.endpoint
  dbType : c.dbType = c'.dbType
  differ : (c.port, c.database) ≠ (c'.port, c'.database)
  named : NamesDatabase c ∧ NamesDatabase c'
  uncut : Uncut schema extn c ∧ Uncut schema extn c'

/-- The names of both files differ. -/
def NamesDiffer (hash : Str → UInt64) (schema extn : Str) (c c' : RunConfig) : Prop :=
  schemaFilename hash schema (sourceLabel c) extn ≠
      schemaFilename hash schema (sourceLabel c') extn ∧
    workbookFilename hash (sourceLabel c) ≠ workbookFilename hash (sourceLabel c')

/-- The names differ when the ports do, or when the databases do once the characters that no file
name contains are replaced. -/
theorem namesDiffer_iff (hash : Str → UInt64) (schema extn : Str) (c c' : RunConfig)
    (h : SameServer schema extn c c') :
    NamesDiffer hash schema extn c c' ↔
      (c.port ≠ c'.port ∨
        c.database.map sanitizeFilenamePart ≠ c'.database.map sanitizeFilenamePart) := by
  obtain ⟨hschema, hworkbook⟩ := h.uncut.1
  obtain ⟨hschema', hworkbook'⟩ := h.uncut.2
  have hnames : NamesDiffer hash schema extn c c' ↔
      sanitizeFilenamePart (sourceLabel c) ≠ sanitizeFilenamePart (sourceLabel c') := by
    rw [NamesDiffer, schemaFilename_of_fits hschema, schemaFilename_of_fits hschema',
      workbookFilename_of_fits hworkbook, workbookFilename_of_fits hworkbook', ne_eq, ne_eq,
      List.append_cancel_right_eq, List.append_cancel_right_eq, List.append_cancel_right_eq,
      List.append_cancel_right_eq, schemaStem_inj, workbookStem_inj h.endpoint, and_self]
  rw [hnames, ne_eq, sanitizeFilenamePart_sourceLabel_inj h.endpoint h.dbType, not_and_or]

/-- A configuration for a database of one server. -/
def databaseConfig (database : Str) : RunConfig where
  endpoint := "h"
  port := 5432
  user := "u"
  password := "p"
  targetDb := none
  exceptTables := none
  outputFormat := .sql
  dbType := .postgres
  database := some database
  tls := ⟨none, none⟩
  skipDefiner := false

lemma sanitized_databaseConfig :
    sanitizeFilenamePart (sourceLabel (databaseConfig "a/b")) = "h@a_b".toList ∧
      sanitizeFilenamePart (sourceLabel (databaseConfig "a_b")) = "h@a_b".toList := by
  decide

lemma uncut_databaseConfig {database : Str}
    (h : sanitizeFilenamePart (sourceLabel (databaseConfig database)) = "h@a_b".toList) :
    Uncut "s" "sql" (databaseConfig database) := by
  rw [Uncut, schemaStem, workbookStem, h]
  decide

lemma sameServer_databaseConfig :
    SameServer "s" "sql" (databaseConfig "a/b") (databaseConfig "a_b") where
  endpoint := Eq.refl "h".toList
  dbType := Eq.refl DbType.postgres
  differ := by decide
  named := ⟨iff_of_true rfl rfl, iff_of_true rfl rfl⟩
  uncut := ⟨uncut_databaseConfig sanitized_databaseConfig.1,
    uncut_databaseConfig sanitized_databaseConfig.2⟩

theorem namesDiffer_iff_databaseConfig :
    NamesDiffer (fun _ => 0) "s" "sql" (databaseConfig "a/b") (databaseConfig "a_b") ↔
      ((databaseConfig "a/b").port ≠ (databaseConfig "a_b").port ∨
        (databaseConfig "a/b").database.map sanitizeFilenamePart ≠
          (databaseConfig "a_b").database.map sanitizeFilenamePart) :=
  namesDiffer_iff (fun _ => 0) "s" "sql" (databaseConfig "a/b") (databaseConfig "a_b")
    sameServer_databaseConfig

/-- The databases `a/b` and `a_b` are written to the same files. -/
theorem not_namesDiffer_databaseConfig :
    ¬∀ (hash : Str → UInt64) (schema extn : Str) (c c' : RunConfig),
      SameServer schema extn c c' → NamesDiffer hash schema extn c c' := by
  intro h
  have hdiffer := h (fun _ => 0) "s" "sql" (databaseConfig "a/b") (databaseConfig "a_b")
    sameServer_databaseConfig
  rw [NamesDiffer, workbookFilename, workbookFilename, sanitized_databaseConfig.1,
    sanitized_databaseConfig.2] at hdiffer
  exact hdiffer.2 rfl

end TdExport
