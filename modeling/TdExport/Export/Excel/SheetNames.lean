import TdExport.Core.Fallible
import TdExport.Core.FirstFit
import TdExport.Export.Excel.Basic
import TdExport.Model.Numbered

/-!
# Every workbook gets its sheets

The names that are found for the sheets are accepted, and differ without regard to case. They are
found for as many schemas as there are numbers to put behind a name, and not always for one more.
-/

namespace TdExport.Excel

open Core

/-! ### One name -/

/-- A name that a workbook accepts for a sheet. -/
structure Accepted (name : Str) : Prop where
  nonempty : 1 ≤ name.length
  short : name.length ≤ 31
  allowed : ∀ c ∈ name, c ∉ "*?:[]\\/".toList
  first : name.head? ≠ some '\''
  last : name.getLast? ≠ some '\''

lemma isReplaced_eq_false {c : Char} : isReplaced c = false ↔ c ∉ "*?:[]\\/".toList := by
  rw [isReplaced, List.contains_eq_mem, decide_eq_false_iff_not]

section Quotes

variable {chars : Str} {i j : ℕ}

@[simp] lemma length_replaceQuote : (replaceQuote chars i).length = chars.length := by
  rw [replaceQuote]
  split_ifs <;> simp

lemma mem_replaceQuote {c : Char} (hc : c ∈ replaceQuote chars i) : c ∈ chars ∨ c = '_' := by
  rw [replaceQuote] at hc
  split_ifs at hc
  · exact List.mem_or_eq_of_mem_set hc
  · exact .inl hc

lemma getElem?_replaceQuote_self : (replaceQuote chars i)[i]? ≠ some '\'' := by
  rw [replaceQuote]
  split_ifs with h
  · rw [List.getElem?_set_self (List.getElem?_eq_some_iff.mp h).1]
    decide
  · exact h

lemma getElem?_replaceQuote (h : chars[j]? ≠ some '\'') :
    (replaceQuote chars i)[j]? ≠ some '\'' := by
  rcases eq_or_ne i j with rfl | hij
  · exact getElem?_replaceQuote_self
  · rw [replaceQuote]
    split_ifs
    · rwa [List.getElem?_set_ne hij]
    · exact h

end Quotes

/-- The characters that are kept of a name, at least one. -/
def clipped (name : Str) (maxChars : ℕ) : Str :=
  let chars := (name.map fun c => if isReplaced c then '_' else c).take maxChars
  if chars.isEmpty then chars ++ ['_'] else chars

variable {name : Str} {maxChars : ℕ}

lemma sanitizeSheetName_eq (name : Str) (maxChars : ℕ) :
    sanitizeSheetName name maxChars =
      replaceQuote (replaceQuote (clipped name maxChars) 0) ((clipped name maxChars).length - 1) :=
  rfl

lemma length_clipped (name : Str) (h : 1 ≤ maxChars) :
    1 ≤ (clipped name maxChars).length ∧ (clipped name maxChars).length ≤ maxChars := by
  rw [clipped]
  split_ifs with hempty
  · rw [List.isEmpty_iff.mp hempty]
    exact ⟨le_rfl, h⟩
  · rw [List.isEmpty_iff] at hempty
    exact ⟨List.length_pos_of_ne_nil hempty, List.length_take_le _ _⟩

lemma isReplaced_of_mem_clipped {c : Char} (hc : c ∈ clipped name maxChars) :
    isReplaced c = false := by
  have htake : c ∈ (name.map fun c => if isReplaced c then '_' else c).take maxChars →
      isReplaced c = false := by
    intro hc
    obtain ⟨d, -, rfl⟩ := List.mem_map.mp (List.mem_of_mem_take hc)
    split_ifs with hd
    · decide
    · simpa using hd
  rw [clipped] at hc
  split_ifs at hc
  · rcases List.mem_append.mp hc with hc | hc
    · exact htake hc
    · rw [List.mem_singleton.mp hc]
      decide
  · exact htake hc

lemma length_sanitizeSheetName (name : Str) (maxChars : ℕ) :
    (sanitizeSheetName name maxChars).length = (clipped name maxChars).length := by
  rw [sanitizeSheetName_eq, length_replaceQuote, length_replaceQuote]

lemma isReplaced_of_mem_sanitizeSheetName {c : Char} (hc : c ∈ sanitizeSheetName name maxChars) :
    isReplaced c = false := by
  rw [sanitizeSheetName_eq] at hc
  rcases mem_replaceQuote hc with hc | rfl
  · rcases mem_replaceQuote hc with hc | rfl
    · exact isReplaced_of_mem_clipped hc
    · decide
  · decide

lemma head?_sanitizeSheetName : (sanitizeSheetName name maxChars).head? ≠ some '\'' := by
  rw [List.head?_eq_getElem?, sanitizeSheetName_eq]
  exact getElem?_replaceQuote getElem?_replaceQuote_self

lemma getLast?_sanitizeSheetName : (sanitizeSheetName name maxChars).getLast? ≠ some '\'' := by
  rw [List.getLast?_eq_getElem?, length_sanitizeSheetName, sanitizeSheetName_eq]
  exact getElem?_replaceQuote_self

/-! ### The number behind a name -/

section Number

variable {z : ℤ} {c : Char}

lemma isReplaced_of_mem_numberText (hc : c ∈ numberText z) : isReplaced c = false := by
  have hall : ∀ d ∈ "*?:[]\\/".toList, (d ≠ '~' ∧ d ≠ '-') ∧ d.isDigit = false := by simp
  rw [isReplaced_eq_false]
  intro hmem
  obtain ⟨hmark, hdigit⟩ := hall c hmem
  rcases mem_numberText hc with (h | h) | h
  · exact hmark.1 h
  · exact hmark.2 h
  · rw [hdigit] at h
    cases h

lemma quote_not_mem_numberText : '\'' ∉ numberText z := by
  intro h
  rcases mem_numberText h with (h | h) | h <;> exact absurd h (by decide)

lemma numberedName_eq (schema : Str) (z : ℤ) :
    numberedName schema z =
      sanitizeSheetName schema (31 - (numberText z).length) ++ numberText z := by
  have hbytes : utf8Len (numberText z) = (numberText z).length :=
    utf8Len_of_forall_lt fun _ hc => (toLower_of_mem_numberText hc).1
  rw [← hbytes]
  rfl

end Number

/-! ### Candidates -/

/-- The name is the schema, or has one of the numbers. -/
def IsCandidate (o : Overflow) (schema name : Str) : Prop :=
  name = sanitizeSheetName schema maxSheetNameChars ∨
    ∃ z ∈ Set.Icc o.lowest o.highest, name = numberedName schema z

lemma accepted_sanitizeSheetName (name : Str) {maxChars : ℕ} (hpos : 1 ≤ maxChars)
    (hmax : maxChars ≤ 31) : Accepted (sanitizeSheetName name maxChars) := by
  obtain ⟨hlow, hhigh⟩ := length_clipped name hpos
  rw [← length_sanitizeSheetName] at hlow hhigh
  exact ⟨hlow, hhigh.trans hmax,
    fun c hc => isReplaced_eq_false.mp (isReplaced_of_mem_sanitizeSheetName hc),
    head?_sanitizeSheetName, getLast?_sanitizeSheetName⟩

lemma accepted_numberedName (schema : Str) {z : ℤ} (hlow : i32Min ≤ z) (hhigh : z ≤ i32Max) :
    Accepted (numberedName schema z) := by
  have hnumber := length_numberText hlow hhigh
  have hroom : 1 ≤ 31 - (numberText z).length := by omega
  have hschema := accepted_sanitizeSheetName schema hroom (Nat.sub_le _ _)
  have hlength := (length_clipped schema hroom).2
  rw [← length_sanitizeSheetName] at hlength
  rw [numberedName_eq]
  refine ⟨?_, ?_, fun c hc => ?_, ?_, ?_⟩
  · rw [List.length_append]
    exact hschema.nonempty.trans (Nat.le_add_right _ _)
  · rw [List.length_append]
    omega
  · rcases List.mem_append.mp hc with hc | hc
    · exact hschema.allowed c hc
    · exact isReplaced_eq_false.mp (isReplaced_of_mem_numberText hc)
  · rw [List.head?_append_of_ne_nil _ (List.ne_nil_of_length_pos hschema.nonempty)]
    exact hschema.first
  · rw [List.getLast?_append_of_ne_nil _ (by simp [numberText])]
    exact fun h => quote_not_mem_numberText (List.mem_of_getLast? h)

lemma accepted_of_isCandidate {o : Overflow} {schema name : Str} (h : IsCandidate o schema name) :
    Accepted name := by
  have hrange : i32Min ≤ o.lowest ∧ o.highest ≤ i32Max := by cases o <;> decide
  rcases h with rfl | ⟨z, hz, rfl⟩
  · exact accepted_sanitizeSheetName schema (by decide) le_rfl
  · exact accepted_numberedName schema (hrange.1.trans hz.1) (hz.2.trans hrange.2)

/-! ### What is found -/

section Found

variable {u : CaseTables} {o : Overflow} {schema name : Str} {used : Finset Str}
  {schemas names : List Str} {retries k : ℕ}

/-- The name after `k` retries. -/
def candidate (schema : Str) : ℕ → Str :=
  candidateOf (numberedName schema) (sanitizeSheetName schema maxSheetNameChars)

def sheetKey (u : CaseTables) (schema : Str) (k : ℕ) : Str := u.toLowercase (candidate schema k)

lemma isCandidate_candidate (schema : Str) (hk : k ≤ o.limit) :
    IsCandidate o schema (candidate schema k) := by
  cases k with
  | zero => exact .inl rfl
  | succ k => exact .inr ⟨counter k, counter_mem hk, rfl⟩

/-- The search finds the first candidate that is free. -/
lemma sheetName_eq_some_iff : sheetName u o retries schema used = some name ↔
    ∃ k ≤ retries, k ≤ o.limit ∧ FirstFree (sheetKey u schema) used k ∧
      name = candidate schema k := by
  rw [sheetName, Option.map_eq_some_iff]
  constructor
  · rintro ⟨⟨name, n⟩, h, rfl⟩
    obtain ⟨k, hk, hlimit, htaken, hfree, rfl, -⟩ := Overflow.count_named_eq_some_iff.mp h
    exact ⟨k, hk, hlimit, ⟨htaken, hfree⟩, rfl⟩
  · rintro ⟨k, hk, hlimit, ⟨htaken, hfree⟩, rfl⟩
    exact ⟨(candidate schema k, counter k),
      Overflow.count_named_eq_some_iff.mpr ⟨k, hk, hlimit, htaken, hfree, rfl, rfl⟩, rfl⟩

variable {retries : ℕ → ℕ}

lemma assignSheetNames_cons_eq_some_iff :
    assignSheetNames u o retries used (schema :: schemas) = some names ↔
      ∃ name names', sheetName u o (retries used.card) schema used = some name ∧
        assignSheetNames u o retries (insert (u.toLowercase name) used) schemas = some names' ∧
          names = name :: names' := by
  rw [assignSheetNames]
  exact bind_pair_eq_some

lemma assignSheetNames_eq_some (h : assignSheetNames u o retries used schemas = some names) :
    List.Forall₂ (IsCandidate o) schemas names ∧ (names.map u.toLowercase).Nodup ∧
      ∀ name ∈ names, u.toLowercase name ∉ used := by
  induction schemas generalizing used names with
  | nil =>
    cases h
    exact ⟨.nil, List.nodup_nil, fun name hname => absurd hname List.not_mem_nil⟩
  | cons schema schemas ih =>
    obtain ⟨name, names', hname, hnames', rfl⟩ := assignSheetNames_cons_eq_some_iff.mp h
    obtain ⟨k, -, hlimit, ⟨-, hfree⟩, rfl⟩ := sheetName_eq_some_iff.mp hname
    have hcandidate := isCandidate_candidate schema hlimit
    obtain ⟨hcandidates, hnodup, hnot⟩ := ih hnames'
    refine ⟨.cons hcandidate hcandidates, ?_, ?_⟩
    · rw [List.map_cons, List.nodup_cons]
      refine ⟨fun hmem => ?_, hnodup⟩
      obtain ⟨name', hname', heq⟩ := List.mem_map.mp hmem
      exact hnot name' hname' (heq ▸ Finset.mem_insert_self _ _)
    · rw [List.forall_mem_cons]
      exact ⟨hfree, fun name' hname' hused =>
        hnot name' hname' (Finset.mem_insert_of_mem hused)⟩

end Found

/-- Names that a workbook accepts for the sheets of `schemas`. -/
structure SheetNames (u : CaseTables) (o : Overflow) (schemas names : List Str) : Prop where
  length : names.length = schemas.length
  in_order : List.Forall₂ (IsCandidate o) schemas names
  accepted : ∀ name ∈ names, Accepted name
  distinct : (names.map u.toLowercase).Nodup

/-- The names that are found are accepted. -/
lemma sheetNames_eq_some {u : CaseTables} {o : Overflow} {retries : ℕ → ℕ}
    {schemas names : List Str} (h : sheetNames u o retries schemas = some names) :
    SheetNames u o schemas names := by
  obtain ⟨hcandidates, hnodup, -⟩ := assignSheetNames_eq_some h
  refine ⟨hcandidates.length_eq.symm, hcandidates, fun name hname => ?_, hnodup⟩
  obtain ⟨schema, -, hcandidate⟩ := exists_of_mem_forall₂ hcandidates hname
  exact accepted_of_isCandidate hcandidate

/-! ### Finding the names -/

section Search

/-- Only the name without a number may come again. -/
lemma sheetKey_succ_injOn (u : CaseTables) (schema : Str) :
    Set.InjOn (fun k => sheetKey u schema (k + 1)) {k | k < 2 ^ 32} := by
  have hkey : ∀ k, ∃ s, sheetKey u schema (k + 1) = s ++ '~' :: intStr (counter k) := fun k =>
    u.exists_toLowercase_append _ fun _ => toLower_of_mem_numberText (z := counter k)
  intro m hm n hn h
  obtain ⟨s, hs⟩ := hkey m
  obtain ⟨s', hs'⟩ := hkey n
  dsimp only at h
  rw [hs, hs'] at h
  have htail := append_cons_inj (tilde_not_mem_intStr _) (tilde_not_mem_intStr _) h
  exact counter_injOn hm hn (intStr_injective htail.2)

/-- With a number for every name, each search ends after at most one more retry than there are
names used. -/
lemma exists_assignSheetNames (u : CaseTables) {o : Overflow} {used : Finset Str}
    {schemas : List Str} (hroom : used.card + schemas.length ≤ o.limit) :
    ∃ names, ∀ retries : ℕ → ℕ, (∀ n, n + 1 ≤ retries n) →
      assignSheetNames u o retries used schemas = some names := by
  induction schemas generalizing used with
  | nil => exact ⟨[], fun _ _ => rfl⟩
  | cons schema schemas ih =>
    rw [List.length_cons] at hroom
    have hlimit := o.limit_le
    have hinj : Set.InjOn (fun k => sheetKey u schema (k + 1))
        {k | k ≤ used.card ∧ Reached (sheetKey u schema) used (k + 1)} := by
      refine (sheetKey_succ_injOn u schema).mono ?_
      rintro k ⟨hk, -⟩
      exact hk.trans_lt (by omega)
    obtain ⟨k, hk, hfree⟩ := exists_firstFree_succ hinj
    have hcard := Finset.card_insert_le (sheetKey u schema k) used
    obtain ⟨names, hnames⟩ := @ih (insert (sheetKey u schema k) used) (by omega)
    refine ⟨candidate schema k :: names, fun retries hretries => ?_⟩
    have hname : sheetName u o (retries used.card) schema used = some (candidate schema k) :=
      sheetName_eq_some_iff.mpr ⟨k, hk.trans (hretries _), by omega, hfree, rfl⟩
    exact assignSheetNames_cons_eq_some_iff.mpr ⟨_, _, hname, hnames retries hretries, rfl⟩

end Search

/-- The schemas get names, and no search makes more than one retry more than there are names
used. -/
def GetsSheets (u : CaseTables) (o : Overflow) (schemas : List Str) : Prop :=
  ∃ names, SheetNames u o schemas names ∧
    ∀ retries : ℕ → ℕ, (∀ n, n + 1 ≤ retries n) → sheetNames u o retries schemas = some names

/-- As many schemas as there are numbers get names for their sheets. -/
theorem sheetNames_getsSheets (u : CaseTables) (o : Overflow) (schemas : List Str)
    (h : schemas.length ≤ o.limit) : GetsSheets u o schemas := by
  have hroom : (∅ : Finset Str).card + schemas.length ≤ o.limit := by
    rwa [Finset.card_empty, Nat.zero_add]
  obtain ⟨names, hnames⟩ := exists_assignSheetNames u hroom
  exact ⟨names, sheetNames_eq_some (hnames (· + 1) fun _ => le_rfl), hnames⟩

theorem sheetNames_getsSheets_sales :
    GetsSheets .asciiOnly .panics ["Sales", "sales", "'q'", "x/y", ""] :=
  sheetNames_getsSheets .asciiOnly .panics ["Sales", "sales", "'q'", "x/y", ""] (by decide)

/-! ### Too many schemas -/

/-- A name that looks as if it had a number already. -/
def numberedSchema : Str := "aaaaaaaaaaaaaaaaaaaaaaaaaaaaa~2"

section TooMany

variable {u : CaseTables} {o : Overflow} {name : Str}

lemma card_numbers (o : Overflow) : (Finset.Icc o.lowest o.highest).card = o.limit := by
  rw [Int.card_Icc]
  cases o <;> rfl

/-- With number 2 the name is the schema. -/
lemma IsCandidate.exists_number (h : IsCandidate o numberedSchema name) :
    ∃ z ∈ Finset.Icc o.lowest o.highest, name = numberedName numberedSchema z := by
  rcases h with rfl | ⟨z, hz, rfl⟩
  · refine ⟨2, ?_, by decide⟩
    rw [Finset.mem_Icc]
    cases o <;> decide
  · exact ⟨z, Finset.mem_Icc.mpr hz, rfl⟩

/-- More schemas of this name than there are numbers get no names. -/
lemma length_le_limit {n : ℕ} {names : List Str}
    (h : SheetNames u o (List.replicate n numberedSchema) names) : n ≤ o.limit := by
  have hsub : (names.map u.toLowercase).toFinset ⊆ (Finset.Icc o.lowest o.highest).image fun z =>
      u.toLowercase (numberedName numberedSchema z) := by
    intro key hkey
    obtain ⟨name, hname, rfl⟩ := List.mem_map.mp (List.mem_toFinset.mp hkey)
    obtain ⟨schema, hschema, hcandidate⟩ := exists_of_mem_forall₂ h.in_order hname
    rw [List.eq_of_mem_replicate hschema] at hcandidate
    obtain ⟨z, hz, rfl⟩ := hcandidate.exists_number
    exact Finset.mem_image_of_mem _ hz
  have hcard := (Finset.card_le_card hsub).trans Finset.card_image_le
  rw [List.toFinset_card_of_nodup h.distinct, List.length_map, h.length, List.length_replicate,
    card_numbers] at hcard
  exact hcard

lemma not_getsSheets_replicate (u : CaseTables) (o : Overflow) :
    ¬GetsSheets u o (List.replicate (o.limit + 1) numberedSchema) := by
  rintro ⟨names, hnames, -⟩
  exact Nat.not_succ_le_self _ (length_le_limit hnames)

end TooMany

/-- With one schema more than there are numbers the number overflows, in either build. -/
theorem not_getsSheets_overflow :
    (¬∀ (u : CaseTables) (schemas : List Str), schemas.length < 10 ^ 20 →
      GetsSheets u .panics schemas) ∧
    ¬∀ (u : CaseTables) (schemas : List Str), schemas.length < 10 ^ 20 →
      GetsSheets u .wraps schemas := by
  constructor
  · intro h
    refine not_getsSheets_replicate .asciiOnly .panics (h _ _ ?_)
    rw [List.length_replicate, Overflow.limit]
    norm_num
  · intro h
    refine not_getsSheets_replicate .asciiOnly .wraps (h _ _ ?_)
    rw [List.length_replicate, Overflow.limit]
    norm_num

end TdExport.Excel
