import TdExport.Core.FirstFit
import TdExport.Export.Filename.Basic
import TdExport.Model.Numbered

/-!
# What the names look like

The stem of a name, with the `_` of a device name, determines the name. Conversely two equal names,
also when only equal without regard to case, come from one stem or were both cut and have one hash.
-/

namespace TdExport

open Core

/-! ### Device names -/

lemma takeWhile_append_dot (t r : Str) :
    (t ++ '.' :: r).takeWhile (· ≠ '.') = t.takeWhile (· ≠ '.') := by
  induction t with
  | nil => simp
  | cons c t ih =>
    by_cases hc : c = '.'
    · simp [hc]
    · simpa [hc] using ih

/-- What follows a `.` does not make a device name. -/
lemma isDevice_append_dot (t r : Str) : isDevice (t ++ '.' :: r) = isDevice t := by
  rw [isDevice, device, takeWhile_append_dot]
  rfl

/-- A stem that has its first `.` in `s` is a device name when `s` is. -/
lemma isDevice_append_of_dot_mem {s : Str} (h : '.' ∈ s) (r : Str) :
    isDevice (s ++ r) = isDevice s := by
  obtain ⟨t, t', rfl⟩ := List.append_of_mem h
  rw [List.append_assoc, List.cons_append, isDevice_append_dot, isDevice_append_dot]

/-- The names that are kept for devices. -/
inductive Reserved : Str → Prop
  | con : Reserved "CON"
  | prn : Reserved "PRN"
  | aux : Reserved "AUX"
  | nul : Reserved "NUL"
  | com {d : Char} (hd : d.isDigit = true) : Reserved ("COM" ++ [d])
  | lpt {d : Char} (hd : d.isDigit = true) : Reserved ("LPT" ++ [d])

/-- One byte more than a port is one character. -/
lemma eq_append_singleton {port d : Str} (hport : port.length = 3) (hbytes : utf8Len port = 3)
    (hd : utf8Len d = 4) (hpre : port <+: d) (hdigit : d[3]?.any Char.isDigit = true) :
    ∃ c, d = port ++ [c] ∧ c.isDigit = true := by
  obtain ⟨t, rfl⟩ := hpre
  rw [utf8Len_append, hbytes] at hd
  have hshort := length_le_utf8Len t
  match t, hshort with
  | [], _ => simp [hport] at hdigit
  | [c], _ => exact ⟨c, rfl, by simpa [List.getElem?_append_right, hport] using hdigit⟩
  | _ :: _ :: _, hshort =>
    simp only [List.length_cons] at hshort
    omega

lemma isDeviceName_iff {d : Str} : isDeviceName d = true ↔ Reserved d := by
  rw [isDeviceName, Bool.or_eq_true, Bool.and_eq_true, Bool.and_eq_true, Bool.or_eq_true,
    beq_iff_eq, List.isPrefixOf_iff_prefix, List.isPrefixOf_iff_prefix]
  constructor
  · rintro (h | ⟨⟨hlen, hpre⟩, hdigit⟩)
    · simp only [List.contains_eq_mem, List.mem_cons, List.not_mem_nil, or_false,
        decide_eq_true_eq] at h
      rcases h with rfl | rfl | rfl | rfl
      · exact .con
      · exact .prn
      · exact .aux
      · exact .nul
    · rcases hpre with hpre | hpre
      · obtain ⟨c, rfl, hc⟩ := eq_append_singleton rfl rfl hlen hpre hdigit
        exact .com hc
      · obtain ⟨c, rfl, hc⟩ := eq_append_singleton rfl rfl hlen hpre hdigit
        exact .lpt hc
  · have hbytes : ∀ {port : Str} {c : Char}, utf8Len port = 3 → c.isDigit = true →
        utf8Len (port ++ [c]) = 4 := by
      intro port c hport hc
      rw [utf8Len_append, hport, utf8Len_cons, utf8Size_of_lt (toLower_of_isDigit hc).1,
        utf8Len_nil]
    rintro (_ | _ | _ | _ | hd | hd)
    · exact .inl rfl
    · exact .inl rfl
    · exact .inl rfl
    · exact .inl rfl
    · exact .inr ⟨⟨hbytes rfl hd, .inl (List.prefix_append _ _)⟩, by simpa using hd⟩
    · exact .inr ⟨⟨hbytes rfl hd, .inr (List.prefix_append _ _)⟩, by simpa using hd⟩

lemma isAlphanum_of_isDeviceName {d : Str} (h : isDeviceName d = true) :
    ∀ c ∈ d, c.isAlphanum = true := by
  rcases isDeviceName_iff.mp h with _ | _ | _ | _ | hd | hd
  · simp
  · simp
  · simp
  · simp
  · simp [Char.isAlphanum, hd]
  · simp [Char.isAlphanum, hd]

lemma mem_trimEnd {s : Str} {c : Char} (hc : c ∈ s) (hblank : isWhitespace c = false) :
    c ∈ trimEnd s := by
  rw [← List.rdropWhile_append_rtakeWhile (p := isWhitespace) (l := s)] at hc
  rcases List.mem_append.mp hc with hc | hc
  · exact hc
  · rw [List.mem_rtakeWhile_imp hc] at hblank
    cases hblank

/-- A stem with a character like `(` before its first `.` is no device name. -/
lemma isDevice_eq_false_of_mem {s : Str} {c : Char} (hc : c ∈ s.takeWhile (· ≠ '.'))
    (hblank : isWhitespace c = false) (halpha : c.toUpper.isAlphanum = false) :
    isDevice s = false := by
  rw [← Bool.not_eq_true]
  intro h
  have hmem : c.toUpper ∈ device s := List.mem_map_of_mem (mem_trimEnd hc hblank)
  rw [isAlphanum_of_isDeviceName h _ hmem] at halpha
  cases halpha

/-- The characters with which the text behind the name of a schema starts. -/
def IsMark (c : Char) : Prop := c = '(' ∨ c = '~'

lemma isDevice_append_mark (s r : Str) {c : Char} (hc : IsMark c) :
    isDevice (s ++ c :: r) = (decide ('.' ∈ s) && isDevice s) := by
  by_cases hdot : '.' ∈ s
  · rw [isDevice_append_of_dot_mem hdot, decide_eq_true hdot, Bool.true_and]
  · rw [decide_eq_false hdot, Bool.false_and]
    have hs : ∀ d ∈ s, decide (d ≠ '.') = true := by
      intro d hd
      exact decide_eq_true fun heq => hdot (heq ▸ hd)
    have hmem : c ∈ (s ++ c :: r).takeWhile (· ≠ '.') := by
      rw [List.takeWhile_append_of_pos hs]
      rcases hc with rfl | rfl <;> simp
    rcases hc with rfl | rfl
    · exact isDevice_eq_false_of_mem hmem (by decide) (by decide)
    · exact isDevice_eq_false_of_mem hmem (by decide) (by decide)

/-- The stem with the `_` of a device name. -/
def protectDevice (stem : Str) : Str := if isDevice stem then "_" ++ stem else stem

lemma isDevice_protectDevice (stem : Str) : isDevice (protectDevice stem) = false := by
  rw [protectDevice]
  split_ifs with h
  · refine isDevice_eq_false_of_mem (c := '_') ?_ (by decide) (by decide)
    simp
  · simpa using h

lemma protectDevice_of_isDevice_eq_false {stem : Str} (h : isDevice stem = false) :
    protectDevice stem = stem := by
  simp [protectDevice, h]

/-! ### Stems -/

/-- Candidate `n` for the name of a schema: the schema itself, then `{schema}~2`, `{schema}~3` … -/
def numbered (schema : Str) (n : ℕ) : Str := schema ++ numberTail n

/-- The text of a schema in the names of its files. -/
def fileText (schema : Str) : Str :=
  let part := sanitizeFilenamePart schema
  if '.' ∈ part ∧ isDevice part = true then "_" ++ part else part

/-- The text of the source in a file name. -/
def sourceText (source : Str) : Str := "(" ++ sanitizeFilenamePart source ++ ")"

/-- The stem of candidate `n` of a schema. -/
def candidateStem (source schema : Str) (n : ℕ) : Str :=
  fileText schema ++ numberTail n ++ sourceText source

lemma utf8Len_candidateStem_le (source schema : Str) (n : ℕ) :
    utf8Len (candidateStem source schema n) ≤
      utf8Len (fileText schema) + 12 + utf8Len (sourceText source) := by
  have htail := length_numberTail n
  rw [← utf8Len_of_forall_lt fun _ hc => (toLower_of_mem_numberTail hc).1] at htail
  rw [candidateStem, utf8Len_append, utf8Len_append]
  omega

lemma isForbidden_of_isDigit {c : Char} (h : c.isDigit = true) : isForbidden c = false := by
  rw [isForbidden, Bool.or_eq_false_iff]
  constructor
  · have hall : ∀ d ∈ "/\\:*?\"<>|".toList, d.isDigit = false := by simp
    rw [List.contains_eq_mem, decide_eq_false_iff_not]
    intro hmem
    rw [hall c hmem] at h
    cases h
  · obtain ⟨hlow, hhigh⟩ : 48 ≤ c.toNat ∧ c.toNat ≤ 57 := Char.isDigit_iff_toNat.mp h
    simp only [isControl, Bool.or_eq_false_iff, Bool.and_eq_false_iff, decide_eq_false_iff_not]
    omega

lemma sanitizeFilenamePart_append (s t : Str) :
    sanitizeFilenamePart (s ++ t) = sanitizeFilenamePart s ++ sanitizeFilenamePart t :=
  List.map_append

lemma sanitizeFilenamePart_of_forall {s : Str} (h : ∀ c ∈ s, isForbidden c = false) :
    sanitizeFilenamePart s = s := by
  have hkeep : ∀ c ∈ s, (if isForbidden c then '_' else c) = c := by
    intro c hc
    rw [h c hc]
    rfl
  rw [sanitizeFilenamePart, List.map_congr_left hkeep, List.map_id']

/-- The text of a number needs no replacement. -/
lemma isForbidden_of_mem_numberTail {n : ℕ} {c : Char} (hc : c ∈ numberTail n) :
    isForbidden c = false := by
  cases n with
  | zero => exact absurd hc List.not_mem_nil
  | succ n =>
    rcases mem_numberText hc with (rfl | rfl) | hdigit
    · decide
    · decide
    · exact isForbidden_of_isDigit hdigit

lemma sanitizeFilenamePart_numbered (schema : Str) (n : ℕ) :
    sanitizeFilenamePart (numbered schema n) = sanitizeFilenamePart schema ++ numberTail n := by
  rw [numbered, sanitizeFilenamePart_append,
    sanitizeFilenamePart_of_forall fun _ => isForbidden_of_mem_numberTail]

lemma protectDevice_append_mark (s r : Str) {c : Char} (hc : IsMark c) :
    protectDevice (s ++ c :: r) =
      (if '.' ∈ s ∧ isDevice s = true then "_" ++ s else s) ++ c :: r := by
  rw [protectDevice, isDevice_append_mark s r hc]
  by_cases h : '.' ∈ s ∧ isDevice s = true
  · simp [h]
  · rw [if_neg h, if_neg]
    simpa using h

/-- The stem of a candidate, with the `_` of a device name. -/
lemma protectDevice_numbered (source schema : Str) (n : ℕ) :
    protectDevice (sanitizeFilenamePart (numbered schema n) ++ "(" ++
      sanitizeFilenamePart source ++ ")") = candidateStem source schema n := by
  rw [sanitizeFilenamePart_numbered, candidateStem, fileText, sourceText]
  cases n with
  | zero =>
    have h := protectDevice_append_mark (sanitizeFilenamePart schema)
      (sanitizeFilenamePart source ++ ")") (.inl rfl)
    simpa [numberTail] using h
  | succ n =>
    have htail : numberTail (n + 1) = '~' :: intStr (counter n) := rfl
    have h := protectDevice_append_mark (sanitizeFilenamePart schema)
      (intStr (counter n) ++ "(" ++ sanitizeFilenamePart source ++ ")") (.inr rfl)
    rw [htail]
    simpa only [List.append_assoc, List.cons_append] using h

/-! ### The text before the extension -/

section Base

variable (hash : Str → UInt64) (extn : Str)

/-- The stem is short enough to be kept as it is. -/
def Fits (stem : Str) : Prop := utf8Len (stem ++ "." ++ extn) ≤ maxFilenameBytes

/-- The mark of a stem that is cut. -/
def hashMark (stem : Str) : Str := "~" ++ hexDigits 16 (hash stem).toNat

/-- What is left of a stem that is cut. -/
def cutStem (stem : Str) : Str :=
  sliceTo stem
    (toCharBoundary stem (maxFilenameBytes - utf8Len (hashMark hash stem ++ "." ++ extn)))

open Classical in
/-- The name of a file without its extension. -/
noncomputable def fileBase (stem : Str) : Str :=
  if Fits extn stem then stem else cutStem hash extn stem ++ hashMark hash stem

variable {hash extn} {s s' : Str}

lemma hashMark_eq_cons (stem : Str) :
    hashMark hash stem = '~' :: hexDigits 16 (hash stem).toNat := by
  simp [hashMark]

lemma fits_of_le (h : utf8Len s + 1 + utf8Len extn ≤ maxFilenameBytes) : Fits extn s := by
  have hdot : utf8Len ".".toList = 1 := by decide
  rwa [Fits, utf8Len_append, utf8Len_append, hdot]

lemma fileBase_of_fits (h : Fits extn s) : fileBase hash extn s = s := if_pos h

lemma fileBase_of_not_fits (h : ¬ Fits extn s) :
    fileBase hash extn s = cutStem hash extn s ++ hashMark hash s := if_neg h

lemma fitFilename_eq_ite (stem : Str) :
    fitFilename hash stem extn =
      if utf8Len (protectDevice stem ++ "." ++ extn) ≤ maxFilenameBytes then
        protectDevice stem ++ "." ++ extn
      else cutStem hash extn (protectDevice stem) ++
        (hashMark hash (protectDevice stem) ++ "." ++ extn) :=
  rfl

lemma fitFilename_eq (stem : Str) :
    fitFilename hash stem extn = fileBase hash extn (protectDevice stem) ++ "." ++ extn := by
  rw [fitFilename_eq_ite]
  by_cases h : Fits extn (protectDevice stem)
  · rw [fileBase_of_fits h]
    rw [Fits] at h
    rw [if_pos h]
  · rw [fileBase_of_not_fits h]
    rw [Fits] at h
    rw [if_neg h]
    simp only [List.append_assoc]

lemma schemaFilename_numbered (schema source : Str) (n : ℕ) :
    schemaFilename hash (numbered schema n) source extn =
      fileBase hash extn (candidateStem source schema n) ++ "." ++ extn := by
  rw [schemaFilename, fitFilename_eq, protectDevice_numbered]

lemma isDevice_candidateStem (source schema : Str) (n : ℕ) :
    isDevice (candidateStem source schema n) = false := by
  rw [← protectDevice_numbered]
  exact isDevice_protectDevice _

lemma isDevice_fileBase (h : isDevice s = false) : isDevice (fileBase hash extn s) = false := by
  by_cases hfits : Fits extn s
  · rwa [fileBase_of_fits hfits]
  · rw [fileBase_of_not_fits hfits]
    rw [hashMark_eq_cons, isDevice_append_mark _ _ (.inr rfl)]
    by_cases hdot : '.' ∈ cutStem hash extn s
    · obtain ⟨r, hr⟩ : cutStem hash extn s <+: s := sliceTo_prefix _ _
      have hcut := isDevice_append_of_dot_mem hdot r
      rw [hr, h] at hcut
      rw [← hcut, Bool.and_false]
    · rw [decide_eq_false hdot, Bool.false_and]

/-- The last character is neither a capital nor a hexadecimal digit. -/
def EndsPlain (s : Str) : Prop :=
  ∃ t c, s = t ++ [c] ∧ c.toNat < 128 ∧ c.toLower = c ∧ isHexChar c = false

lemma endsPlain_candidateStem (source schema : Str) (n : ℕ) :
    EndsPlain (candidateStem source schema n) := by
  refine ⟨fileText schema ++ numberTail n ++ ("(" ++ sanitizeFilenamePart source), ')', ?_,
    by decide, by decide, by decide⟩
  rw [candidateStem, sourceText]
  simp

lemma guarded_candidateStem (source schema : Str) (n : ℕ) :
    FileTables.Guarded (candidateStem source schema n) := by
  refine ⟨fileText schema ++ numberTail n ++ ("(" ++ sanitizeFilenamePart source), ')', [], ?_,
    by decide, fun d hd => absurd hd List.not_mem_nil⟩
  rw [candidateStem, sourceText]
  simp

lemma toLower_of_mem_hexDigits {k n : ℕ} {c : Char} (hc : c ∈ hexDigits k n) :
    c.toNat < 128 ∧ c.toLower = c := by
  have hdigit : ∀ d < 16, (hexDigit d).toNat < 128 ∧ (hexDigit d).toLower = hexDigit d := by decide
  obtain ⟨d, hd, rfl⟩ := exists_of_mem_hexDigits hc
  exact hdigit d hd

lemma exists_toLowercase_append_hashMark (hash : Str → UInt64) (u : CaseTables) (t s : Str) :
    ∃ t', u.toLowercase (t ++ hashMark hash s) = t' ++ hashMark hash s := by
  apply u.exists_toLowercase_append
  intro c hc
  rw [hashMark_eq_cons] at hc
  rcases List.mem_cons.mp hc with rfl | hc
  · decide
  · exact toLower_of_mem_hexDigits hc

/-- A stem that is cut ends in its mark. -/
lemma guarded_fileBase (hs : FileTables.Guarded s) : FileTables.Guarded (fileBase hash extn s) := by
  by_cases hfits : Fits extn s
  · rwa [fileBase_of_fits hfits]
  · rw [fileBase_of_not_fits hfits, hashMark_eq_cons]
    exact ⟨cutStem hash extn s, '~', _, rfl, by decide, fun d => toLower_of_mem_hexDigits⟩

variable (u : CaseTables)

/-- No stem that is kept reads like one that is cut. -/
lemma toLowercase_ne_hashMark (hs : EndsPlain s) (t : Str) :
    u.toLowercase s ≠ u.toLowercase (t ++ hashMark hash s') := by
  obtain ⟨t', c, rfl, hascii, hlower, hhex⟩ := hs
  intro h
  have hlast : ∀ d ∈ [c], d.toNat < 128 ∧ d.toLower = d := by
    intro d hd
    rw [List.mem_singleton.mp hd]
    exact ⟨hascii, hlower⟩
  obtain ⟨x, hx⟩ := u.exists_toLowercase_append t' hlast
  obtain ⟨x', hx'⟩ := exists_toLowercase_append_hashMark hash u t s'
  rw [hx, hx', hashMark_eq_cons, hexDigits, ← List.cons_append, ← List.append_assoc] at h
  obtain ⟨-, hlast⟩ := List.append_inj' h rfl
  rw [List.singleton_inj.mp hlast, isHexChar_hexDigit _ (Nat.mod_lt _ (by norm_num))] at hhex
  cases hhex

/-- The mark of a stem that is cut tells its hash. -/
lemma hash_eq_of_append_hashMark {t t' : Str} (h : t ++ hashMark hash s = t' ++ hashMark hash s') :
    t = t' ∧ hash s = hash s' := by
  rw [hashMark_eq_cons, hashMark_eq_cons] at h
  obtain ⟨ht, hmark⟩ := List.append_inj' h (by simp)
  have hdigits := hexDigits_injOn (hash s).toNat_lt (hash s').toNat_lt (List.cons.inj hmark).2
  exact ⟨ht, UInt64.toNat_inj.mp hdigits⟩

/-- Two names that are equal without regard to case were both kept, or were both cut and have one
hash. -/
lemma toLowercase_fileBase_eq (hs : EndsPlain s) (hs' : EndsPlain s')
    (h : u.toLowercase (fileBase hash extn s) = u.toLowercase (fileBase hash extn s')) :
    (Fits extn s ∧ Fits extn s' ∧ u.toLowercase s = u.toLowercase s') ∨
      (¬ Fits extn s ∧ ¬ Fits extn s' ∧ hash s = hash s') := by
  by_cases hfits : Fits extn s <;> by_cases hfits' : Fits extn s'
  · rw [fileBase_of_fits hfits, fileBase_of_fits hfits'] at h
    exact .inl ⟨hfits, hfits', h⟩
  · rw [fileBase_of_fits hfits, fileBase_of_not_fits hfits'] at h
    exact absurd h (toLowercase_ne_hashMark u hs _)
  · rw [fileBase_of_not_fits hfits, fileBase_of_fits hfits'] at h
    exact absurd h.symm (toLowercase_ne_hashMark u hs' _)
  · rw [fileBase_of_not_fits hfits, fileBase_of_not_fits hfits'] at h
    obtain ⟨x, hx⟩ := exists_toLowercase_append_hashMark hash u (cutStem hash extn s) s
    obtain ⟨x', hx'⟩ :=
      exists_toLowercase_append_hashMark hash u (cutStem hash extn s') s'
    rw [hx, hx'] at h
    exact .inr ⟨hfits, hfits', (hash_eq_of_append_hashMark h).2⟩

variable (hash extn) in
/-- Two stems that are cut to the same text and have one hash. -/
def HashClash (s s' : Str) : Prop :=
  ¬ Fits extn s ∧ ¬ Fits extn s' ∧ cutStem hash extn s = cutStem hash extn s' ∧ hash s = hash s'

/-- Two names are equal when their stems are, or when both are cut to the same. -/
lemma fileBase_eq_iff (hs : EndsPlain s) (hs' : EndsPlain s') :
    fileBase hash extn s = fileBase hash extn s' ↔ s = s' ∨ HashClash hash extn s s' := by
  constructor
  · intro h
    rcases toLowercase_fileBase_eq CaseTables.asciiOnly hs hs' (congrArg _ h) with
      ⟨hfits, hfits', -⟩ | ⟨hfits, hfits', -⟩
    · rw [fileBase_of_fits hfits, fileBase_of_fits hfits'] at h
      exact .inl h
    · rw [fileBase_of_not_fits hfits, fileBase_of_not_fits hfits'] at h
      exact .inr ⟨hfits, hfits', hash_eq_of_append_hashMark h⟩
  · rintro (rfl | ⟨hfits, hfits', hcut, hhash⟩)
    · rfl
    · rw [fileBase_of_not_fits hfits, fileBase_of_not_fits hfits', hcut, hashMark, hashMark, hhash]

end Base

/-! ### Names of the files of foreign keys -/

section CrossSchema

variable {hash : Str → UInt64} {extn : Str}

/-- What is left of the extension in the name of the file of foreign keys. -/
def extensionTail (extn : Str) : Str := (stripSuffix ".sql" ("." ++ extn)).getD ("." ++ extn)

/-- The stem of the file of foreign keys that goes with candidate `n` of a schema. -/
noncomputable def crossStem (hash : Str → UInt64) (source extn schema : Str) (n : ℕ) : Str :=
  fileBase hash extn (candidateStem source schema n) ++ extensionTail extn ++ ".cross-schema-fk"

/-- Whether a name ends in `.sql` is up to its extension. -/
lemma suffix_append_dot_iff (t : Str) :
    ".sql".toList <:+ t ++ "." ++ extn ↔ ".sql".toList <:+ ".".toList ++ extn := by
  rw [List.append_assoc]
  constructor
  · intro h
    rcases List.suffix_or_suffix_of_suffix h (List.suffix_append t _) with hsuffix | hsuffix
    · exact hsuffix
    · rcases List.suffix_cons_iff.mp hsuffix with heq | hshort
      · rw [heq]
        exact List.suffix_rfl
      · exact absurd (hshort.subset List.mem_cons_self) (by decide)
  · exact fun h => h.trans (List.suffix_append t _)

lemma stripSuffix_append_extension (t : Str) :
    (stripSuffix ".sql" (t ++ "." ++ extn)).getD (t ++ "." ++ extn) = t ++ extensionTail extn := by
  by_cases h : ".sql".toList <:+ ".".toList ++ extn
  · obtain ⟨r, hr⟩ := h
    rw [extensionTail, List.append_assoc, ← hr, ← List.append_assoc, stripSuffix_append,
      stripSuffix_append]
    rfl
  · have hnone : stripSuffix ".sql" ("." ++ extn) = none := by
      rw [stripSuffix, if_neg (by rwa [List.isSuffixOf_iff_suffix])]
    have hnone' : stripSuffix ".sql" (t ++ "." ++ extn) = none := by
      rw [stripSuffix, if_neg (by rwa [List.isSuffixOf_iff_suffix, suffix_append_dot_iff])]
    rw [extensionTail, hnone, hnone']
    exact List.append_assoc _ _ _

lemma extensionTail_eq (extn : Str) :
    extensionTail extn = [] ∨ ∃ r, extensionTail extn = '.' :: r := by
  rw [extensionTail, stripSuffix]
  split_ifs with h
  · cases hk : (".".toList ++ extn).length - ".sql".toList.length with
    | zero => exact .inl rfl
    | succ k => exact .inr ⟨extn.take k, rfl⟩
  · exact .inr ⟨extn, rfl⟩

/-- What is left of an extension does not make a device name. -/
lemma isDevice_append_extensionTail (t r : Str) :
    isDevice (t ++ extensionTail extn ++ '.' :: r) = isDevice t := by
  rw [isDevice_append_dot]
  rcases extensionTail_eq extn with h | ⟨r', h⟩
  · rw [h, List.append_nil]
  · rw [h, isDevice_append_dot]

lemma endsPlain_crossStem (source schema : Str) (n : ℕ) :
    EndsPlain (crossStem hash source extn schema n) := by
  refine ⟨fileBase hash extn (candidateStem source schema n) ++ extensionTail extn ++
    ".cross-schema-f", 'k', ?_, by decide, by decide, by decide⟩
  simp [crossStem]

/-- The file of foreign keys gets no `_` of its own. -/
lemma protectDevice_cross (source schema : Str) (n : ℕ) :
    protectDevice ((stripSuffix ".sql" (schemaFilename hash (numbered schema n) source extn)).getD
      (schemaFilename hash (numbered schema n) source extn) ++ ".cross-schema-fk") =
        crossStem hash source extn schema n := by
  rw [schemaFilename_numbered, stripSuffix_append_extension, ← crossStem]
  have h : isDevice (fileBase hash extn (candidateStem source schema n)) = false :=
    isDevice_fileBase (isDevice_candidateStem _ _ _)
  rw [← isDevice_append_extensionTail _ "cross-schema-fk"] at h
  exact protectDevice_of_isDevice_eq_false h

lemma crossSchemaFilename_eq (source schema : Str) (n : ℕ) :
    crossSchemaFilename hash (schemaFilename hash (numbered schema n) source extn) =
      fileBase hash "sql" (crossStem hash source extn schema n) ++ "." ++ "sql" := by
  rw [crossSchemaFilename, fitFilename_eq, protectDevice_cross]

end CrossSchema

end TdExport
