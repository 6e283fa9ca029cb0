import TdExport.Export.Filename.Source

/-!
# Every name is one safe component of a path

No name of an output file leaves its directory, is too long, or is read as a device, whatever the
names of the schema and of the source are. A stem that is too long is cut where a character starts.
-/

namespace TdExport

open Core

/-- A name that stands for one file in the directory it is opened in. -/
structure SafeFilename (extn name : Str) : Prop where
  allowed : ∀ c ∈ name, c ∉ "/\\:*?\"<>|".toList ∧ isControl c = false
  short : utf8Len name ≤ 255
  extended : '.' :: extn <:+ name
  ne_dot : name ≠ "."
  ne_dots : name ≠ ".."
  no_device : ¬Reserved (toAsciiUppercase (trimEnd (name.takeWhile (· ≠ '.'))))

/-! ### The characters -/

lemma isForbidden_eq_false {c : Char} :
    isForbidden c = false ↔ c ∉ "/\\:*?\"<>|".toList ∧ isControl c = false := by
  rw [isForbidden, Bool.or_eq_false_iff, List.contains_eq_mem, decide_eq_false_iff_not]

/-- No character of `s` is replaced. -/
def Allowed (s : Str) : Prop := ∀ c ∈ s, isForbidden c = false

lemma allowed_of_all {s : Str} (h : (s.all fun c => !isForbidden c) = true) : Allowed s := by
  intro c hc
  simpa using List.all_eq_true.mp h c hc

lemma Allowed.append {s t : Str} (hs : Allowed s) (ht : Allowed t) : Allowed (s ++ t) := by
  intro c hc
  exact (List.mem_append.mp hc).elim (hs c) (ht c)

lemma Allowed.mono {s t : Str} (ht : Allowed t) (h : s <+: t) : Allowed s :=
  fun c hc => ht c (h.subset hc)

lemma allowed_sanitizeFilenamePart (part : Str) : Allowed (sanitizeFilenamePart part) := by
  intro c hc
  obtain ⟨d, -, rfl⟩ := List.mem_map.mp hc
  split_ifs with hd
  · decide
  · simpa using hd

lemma allowed_protectDevice {stem : Str} (h : Allowed stem) : Allowed (protectDevice stem) := by
  rw [protectDevice]
  split_ifs
  · exact (allowed_of_all rfl).append h
  · exact h

lemma hexDigit_plain : ∀ d < 16, isForbidden (hexDigit d) = false ∧ (hexDigit d).toNat < 128 := by
  decide

lemma hashMark_plain (hash : Str → UInt64) (stem : Str) :
    ∀ c ∈ hashMark hash stem, isForbidden c = false ∧ c.toNat < 128 := by
  intro c hc
  rw [hashMark_eq_cons] at hc
  rcases List.mem_cons.mp hc with rfl | hc
  · decide
  · obtain ⟨d, hd, rfl⟩ := exists_of_mem_hexDigits hc
    exact hexDigit_plain d hd

lemma allowed_hashMark (hash : Str → UInt64) (stem : Str) : Allowed (hashMark hash stem) :=
  fun c hc => (hashMark_plain hash stem c hc).1

/-! ### The cut -/

section Cut

variable (hash : Str → UInt64) (extn stem : Str)

/-- The byte at which a stem that is too long is cut. -/
def cutIndex : ℕ :=
  toCharBoundary stem (maxFilenameBytes - utf8Len (hashMark hash stem ++ "." ++ extn))

lemma isCharBoundary_toCharBoundary (s : Str) (n : ℕ) :
    isCharBoundary s (toCharBoundary s n) = true := by
  induction n with
  | zero => cases s <;> rfl
  | succ n ih =>
    rw [toCharBoundary]
    split_ifs with h
    · exact h
    · exact ih

lemma toCharBoundary_le (s : Str) (n : ℕ) : toCharBoundary s n ≤ n := by
  induction n with
  | zero => exact le_rfl
  | succ n ih =>
    rw [toCharBoundary]
    split_ifs
    · exact le_rfl
    · exact ih.trans n.le_succ

lemma isCharBoundary_cutIndex : isCharBoundary stem (cutIndex hash extn stem) = true :=
  isCharBoundary_toCharBoundary stem _

lemma cutIndex_le : cutIndex hash extn stem ≤ utf8Len stem :=
  le_utf8Len_of_isCharBoundary (isCharBoundary_cutIndex hash extn stem)

/-- The mark takes seventeen bytes. -/
lemma utf8Len_hashMark : utf8Len (hashMark hash stem) = 17 := by
  rw [utf8Len_of_forall_lt fun c hc => (hashMark_plain hash stem c hc).2, hashMark_eq_cons,
    List.length_cons, length_hexDigits]

lemma utf8Len_fileBase (hextn : utf8Len extn ≤ 237) :
    utf8Len (fileBase hash extn stem ++ "." ++ extn) ≤ maxFilenameBytes := by
  by_cases h : Fits extn stem
  · rw [fileBase_of_fits h]
    exact h
  · have hcut : utf8Len (cutStem hash extn stem) ≤
        maxFilenameBytes - utf8Len (hashMark hash stem ++ "." ++ extn) := by
      rw [cutStem, utf8Len_sliceTo (isCharBoundary_toCharBoundary stem _)]
      exact toCharBoundary_le _ _
    have hdot : utf8Len "." = 1 := rfl
    have hmax : maxFilenameBytes = 255 := rfl
    rw [utf8Len_append, utf8Len_append, utf8Len_hashMark, hdot, hmax] at hcut
    rw [fileBase_of_not_fits h, utf8Len_append, utf8Len_append, utf8Len_append, utf8Len_hashMark,
      hdot, hmax]
    omega

end Cut

/-! ### The names -/

/-- An extension of an output file. -/
structure Extension (extn : Str) : Prop where
  allowed : Allowed extn
  short : utf8Len extn ≤ 237
  two_le : 2 ≤ extn.length

lemma extension_md : Extension "md" where
  allowed := allowed_of_all rfl
  short := by decide
  two_le := by decide

lemma extension_sql : Extension "sql" where
  allowed := allowed_of_all rfl
  short := by decide
  two_le := by decide

lemma extension_xlsx : Extension "xlsx" where
  allowed := allowed_of_all rfl
  short := by decide
  two_le := by decide

lemma allowed_fitFilename (hash : Str → UInt64) {stem extn : Str} (hstem : Allowed stem)
    (hextn : Extension extn) : Allowed (fitFilename hash stem extn) := by
  have hprotected := allowed_protectDevice hstem
  have hdot : Allowed "." := allowed_of_all rfl
  rw [fitFilename_eq]
  refine Allowed.append (Allowed.append ?_ hdot) hextn.allowed
  by_cases h : Fits extn (protectDevice stem)
  · rwa [fileBase_of_fits h]
  · rw [fileBase_of_not_fits h]
    have hcut : Allowed (cutStem hash extn (protectDevice stem)) :=
      hprotected.mono <| sliceTo_prefix _ _
    exact hcut.append (allowed_hashMark hash _)

/-- What `fitFilename` makes of allowed characters is safe. -/
lemma safeFilename_fitFilename (hash : Str → UInt64) {stem extn : Str} (hstem : Allowed stem)
    (hextn : Extension extn) : SafeFilename extn (fitFilename hash stem extn) := by
  have hsuffix : '.' :: extn <:+ fitFilename hash stem extn := by
    rw [fitFilename_eq, List.append_assoc]
    exact List.suffix_append _ _
  have hlength : 3 ≤ (fitFilename hash stem extn).length :=
    (Nat.succ_le_succ hextn.two_le).trans hsuffix.length_le
  refine ⟨fun c hc => ?_, ?_, hsuffix, ?_, ?_, ?_⟩
  · exact isForbidden_eq_false.mp (allowed_fitFilename hash hstem hextn c hc)
  · rw [fitFilename_eq]
    exact utf8Len_fileBase hash extn _ hextn.short
  · intro h
    rw [h] at hlength
    exact absurd hlength (by decide)
  · intro h
    rw [h] at hlength
    exact absurd hlength (by decide)
  · have hbase : isDevice (fileBase hash extn (protectDevice stem)) = false :=
      isDevice_fileBase (isDevice_protectDevice stem)
    have hname : isDevice (fitFilename hash stem extn) = false := by
      rw [fitFilename_eq, List.append_assoc]
      exact (isDevice_append_dot _ _).trans hbase
    intro hreserved
    have hdevice : isDevice (fitFilename hash stem extn) = true := isDeviceName_iff.mpr hreserved
    rw [hdevice] at hname
    cases hname

lemma allowed_schemaStem (schema source : Str) :
    Allowed (sanitizeFilenamePart schema ++ "(" ++ sanitizeFilenamePart source ++ ")") := by
  have hopen : Allowed "(" := allowed_of_all rfl
  have hclose : Allowed ")" := allowed_of_all rfl
  have hschema := (allowed_sanitizeFilenamePart schema).append hopen
  exact (hschema.append (allowed_sanitizeFilenamePart source)).append hclose

/-- The name of the file of foreign keys is safe when that of its schema is. -/
lemma safeFilename_crossSchemaFilename (hash : Str → UInt64) {schemaFile : Str}
    (h : Allowed schemaFile) : SafeFilename "sql" (crossSchemaFilename hash schemaFile) := by
  have hmark : Allowed ".cross-schema-fk" := allowed_of_all rfl
  have hstem : Allowed ((stripSuffix ".sql" schemaFile).getD schemaFile) := by
    rw [stripSuffix]
    split_ifs
    · exact h.mono (List.take_prefix _ _)
    · exact h
  rw [crossSchemaFilename]
  exact safeFilename_fitFilename hash (hstem.append hmark) extension_sql

/-- A stem that is too long is cut in the stem, where a character starts. -/
def CutsInside (hash : Str → UInt64) : Prop :=
  ∀ stem extn : Str, ¬Fits extn (protectDevice stem) →
    let cut := cutIndex hash extn (protectDevice stem)
    fitFilename hash stem extn = sliceTo (protectDevice stem) cut ++
        (hashMark hash (protectDevice stem) ++ "." ++ extn) ∧
      isCharBoundary (protectDevice stem) cut = true ∧ cut ≤ utf8Len (protectDevice stem)

lemma cutsInside (hash : Str → UInt64) : CutsInside hash := by
  intro stem extn h
  refine ⟨?_, isCharBoundary_cutIndex hash extn _, cutIndex_le hash extn _⟩
  rw [fitFilename_eq_ite]
  exact if_neg h

/-- The files of a schema and of a workbook have safe names, and no cut leaves the stem. -/
theorem filenames_safe (hash : Str → UInt64) (schema source extn : Str)
    (hextn : extn = "md" ∨ extn = "sql") :
    SafeFilename extn (schemaFilename hash schema source extn) ∧
      SafeFilename "xlsx" (workbookFilename hash source) ∧
      SafeFilename "sql" (crossSchemaFilename hash (schemaFilename hash schema source extn)) ∧
      CutsInside hash := by
  have hextension : Extension extn := by
    rcases hextn with rfl | rfl
    · exact extension_md
    · exact extension_sql
  have hschema := allowed_schemaStem schema source
  exact ⟨safeFilename_fitFilename hash hschema hextension,
    safeFilename_fitFilename hash (allowed_sanitizeFilenamePart source) extension_xlsx,
    safeFilename_crossSchemaFilename hash (allowed_fitFilename hash hschema hextension),
    cutsInside hash⟩

theorem filenames_safe_device :
    SafeFilename "sql" (schemaFilename (fun _ => 0) "con.x" "::1" "sql") ∧
      SafeFilename "xlsx" (workbookFilename (fun _ => 0) "::1") ∧
      SafeFilename "sql"
        (crossSchemaFilename (fun _ => 0) (schemaFilename (fun _ => 0) "con.x" "::1" "sql")) ∧
      CutsInside fun _ => 0 :=
  filenames_safe (fun _ => 0) "con.x" "::1" "sql" (.inr rfl)

end TdExport
