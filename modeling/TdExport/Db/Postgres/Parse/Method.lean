import TdExport.Db.Postgres.Parse.Definition

/-!
# The method of an index

`parse_pg_indexdef` takes the word after the first `USING ` of the definition. This is the keyword
of the definition unless a name before it reads the same.
-/

namespace TdExport.Postgres

open Core

variable {d : IndexDef}

/-- When the text before the keyword has `USING `, the word after its first such place, which may
be the keyword itself, is the method. -/
def OwnUsing (d : IndexDef) : Prop :=
  ∀ left right, splitOnce "USING " (toAsciiUppercase d.before) = some (left, right) →
    (splitWhitespace right ++ ["USING".toList]).head? = some (toAsciiUppercase d.method)

/-- The text behind the keyword, in capitals. -/
def afterUsing (d : IndexDef) : Str :=
  toAsciiUppercase (d.method ++ " (" ++ d.keyText ++ ")" ++ d.whereText)

lemma toAsciiUppercase_text (d : IndexDef) :
    toAsciiUppercase d.text =
      toAsciiUppercase d.before ++ ("USING".toList ++ [' '] ++ afterUsing d) := by
  have husing : toAsciiUppercase "USING " = "USING".toList ++ [' '] := by decide +kernel
  simp only [IndexDef.text, afterUsing, toAsciiUppercase_append, husing, List.append_assoc]

/-- The method is the first word behind the keyword. -/
lemma head?_splitWhitespace_afterUsing (h : IsWord d.method) :
    (splitWhitespace (afterUsing d)).head? = some (toAsciiUppercase d.method) := by
  have hafter : afterUsing d = toAsciiUppercase d.method ++
      toAsciiUppercase (" (" ++ d.keyText ++ ")" ++ d.whereText) := by
    simp only [afterUsing, toAsciiUppercase_append, List.append_assoc]
  rw [hafter, (isWord_toAsciiUppercase_iff.mpr h).splitWhitespace_append]
  · rfl
  · simp [toAsciiUppercase, isWhitespace]

/-- The text before the keyword ends with a blank. -/
lemma blank_suffix_before (d : IndexDef) : [' '] <:+ toAsciiUppercase d.before := by
  have hblank : toAsciiUppercase " " = [' '] := by simp [toAsciiUppercase]
  obtain ⟨s, hs⟩ : ∃ s, d.before = s ++ " ".toList := ⟨_, rfl⟩
  rw [hs, toAsciiUppercase_append, hblank]
  exact List.suffix_append _ _

/-- What is left of a text that ends with a blank gives its words whatever follows. -/
lemma splitWhitespace_append_of_suffix {s t r : Str} (hs : [' '] <:+ s) (hr : r <:+ s) :
    splitWhitespace (r ++ t) = splitWhitespace r ++ splitWhitespace t := by
  rcases r.eq_nil_or_concat with rfl | ⟨r, c, rfl⟩
  · simp
  · obtain ⟨l, rfl⟩ := hs
    obtain ⟨l', hl⟩ := hr
    obtain rfl : c = ' ' := by simpa using congrArg List.getLast? hl
    rw [List.concat_eq_append, List.append_assoc, List.singleton_append,
      splitWhitespace_append_cons (by decide), splitWhitespace_append_cons (by decide)]
    simp

lemma method_parsePgIndexdef (indexdef : Str) :
    (parsePgIndexdef indexdef).method =
      (splitOnce "USING " (toAsciiUppercase indexdef)).bind fun p =>
        (splitWhitespace p.2).head? := by
  rw [parsePgIndexdef]
  cases findColumnBlock indexdef <;> rfl

/-- The method that is found is a word. -/
lemma isWord_of_method {indexdef method : Str}
    (h : (parsePgIndexdef indexdef).method = some method) : IsWord method := by
  rw [method_parsePgIndexdef] at h
  obtain ⟨p, -, hhead⟩ := Option.bind_eq_some_iff.mp h
  exact isWord_of_mem_splitWhitespace (List.mem_of_mem_head? hhead)

lemma splitWhitespace_keyword (d : IndexDef) :
    splitWhitespace ("USING".toList ++ [' '] ++ afterUsing d) =
      "USING".toList :: splitWhitespace (afterUsing d) := by
  have hword : IsWord "USING".toList := ⟨by simp, by simp [isWhitespace]⟩
  rw [List.append_assoc, List.singleton_append, splitWhitespace_append_cons (by decide),
    hword.splitWhitespace_eq]
  rfl

lemma method_iff_of_isWord (h : IsWord d.method) :
    (parsePgIndexdef d.text).method = some (toAsciiUppercase d.method) ↔ OwnUsing d := by
  have husing : "USING ".toList = "USING".toList ++ [' '] := by decide +kernel
  rw [method_parsePgIndexdef, toAsciiUppercase_text, OwnUsing, husing]
  cases hsplit : splitOnce ("USING".toList ++ [' ']) (toAsciiUppercase d.before) with
  | none =>
    rw [splitOnce_append_of_none (by simp) hsplit, Option.bind_some,
      head?_splitWhitespace_afterUsing h]
    simp
  | some p =>
    obtain ⟨left, right⟩ := p
    have hwords := splitWhitespace_append_of_suffix (t := "USING".toList ++ [' '] ++ afterUsing d)
      (blank_suffix_before d) (suffix_of_splitOnce hsplit)
    rw [splitOnce_append_of_some hsplit, Option.bind_some, hwords, splitWhitespace_keyword]
    constructor
    · intro hhead left' right' heq
      obtain ⟨rfl, rfl⟩ := Prod.mk.inj (Option.some.inj heq)
      simpa [List.head?_append] using hhead
    · intro hown
      simpa [List.head?_append] using hown left right rfl

/-- The method of the index is found exactly when it is a word and the first `USING ` is its own, or
what follows the first one is the method all the same. -/
theorem parsePgIndexdef_method_iff (d : IndexDef) :
    (parsePgIndexdef d.text).method = some (toAsciiUppercase d.method) ↔
      IsWord d.method ∧ OwnUsing d := by
  constructor
  · intro hmethod
    have hword := isWord_toAsciiUppercase_iff.mp (isWord_of_method hmethod)
    exact ⟨hword, (method_iff_of_isWord hword).mp hmethod⟩
  · rintro ⟨hword, hown⟩
    exact (method_iff_of_isWord hword).mpr hown

/-- An index whose name ends in `using`. -/
def housingIndex : IndexDef where
  unique := false
  name := "housing"
  only := false
  relation := "public.t"
  method := "gin"
  columns := [⟨"a", []⟩]
  predicate := none

/-- The keyword that is found is the end of the name, and the method read is `ON`. -/
theorem parsePgIndexdef_method_housing :
    (parsePgIndexdef housingIndex.text).method ≠ some (toAsciiUppercase housingIndex.method) := by
  decide +kernel

end TdExport.Postgres
