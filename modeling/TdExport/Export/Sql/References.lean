import TdExport.Core.Search
import TdExport.Export.Sql.Lexing

/-!
# No reference to a view is missed

A printed reference outside literals and quoted identifiers is found, unless it is an alias or part
of a longer name.
-/

namespace TdExport.Sql

open Core

variable {u : Unicode} {db : DbType} {schema name : Str}

/-- The spellings under which a server prints a view, when its names need no escaping. -/
def printedReferences (schema name : Str) : DbType → List Str
  | .mySql => ["`" ++ name ++ "`", "`" ++ schema ++ "`.`" ++ name ++ "`"]
  | .postgres =>
    [schema ++ "." ++ name, schema ++ ".\"" ++ name ++ "\"", "\"" ++ schema ++ "\"." ++ name,
      "\"" ++ schema ++ "\".\"" ++ name ++ "\""]

/-! ### Identifier characters -/

lemma isIdentChar_punctuation (u : Unicode) :
    ∀ c ∈ "'\"`.".toList, isIdentChar u c = false := by
  intro c hc
  simp only [String.reduceToList, List.mem_cons, List.not_mem_nil, or_false] at hc
  rcases hc with rfl | rfl | rfl | rfl <;>
    rw [isIdentChar, u.isAlphanumeric_ascii _ (by decide)] <;> decide

/-- A name of identifier characters has no quotation mark. -/
lemma ne_of_isIdentChar {s : Str} (hs : ∀ c ∈ s, isIdentChar u c = true) {d : Char}
    (hd : d ∈ "'\"`.".toList) : ∀ c ∈ s, c ≠ d := by
  rintro c hc rfl
  have hident := hs c hc
  rw [isIdentChar_punctuation u c hd] at hident
  cases hident

lemma identQuote_mem (db : DbType) : identQuote db ∈ "'\"`.".toList := by
  cases db <;> decide

lemma doubleQuotes_eq_self {q : Char} {s : Str} (h : ∀ c ∈ s, c ≠ q) : doubleQuotes q s = s := by
  rw [doubleQuotes, replaceChars]
  induction s with
  | nil => rfl
  | cons c s ih =>
    rw [List.flatMap_cons, if_neg (h c List.mem_cons_self),
      ih fun d hd => h d (List.mem_cons_of_mem _ hd)]
    rfl

/-! ### Printed references -/

section Printed

variable (hschema : ∀ c ∈ schema, isIdentChar u c = true)
  (hname : ∀ c ∈ name, isIdentChar u c = true)

include hschema hname

/-- What the server prints is looked for. -/
lemma mem_viewNeedles {r : Str} (hr : r ∈ printedReferences schema name db) :
    r ∈ viewNeedles schema name db := by
  have hquoted : ∀ s : Str, (∀ c ∈ s, isIdentChar u c = true) →
      doubleQuotes (identQuote db) s = s := fun s hs =>
    doubleQuotes_eq_self (ne_of_isIdentChar hs (identQuote_mem db))
  have hschema' := hquoted schema hschema
  have hname' := hquoted name hname
  cases db <;>
    simp only [identQuote, printedReferences, viewNeedles, List.mem_cons, List.not_mem_nil,
      or_false, List.flatMap_cons, List.flatMap_nil, List.append_nil, List.cons_append,
      List.nil_append] at hr hschema' hname' ⊢
  · rcases hr with rfl | rfl
    · exact .inr (by rw [hname'])
    · exact .inl (by rw [hschema', hname']; simp)
  · rcases hr with rfl | rfl | rfl | rfl
    · exact .inl rfl
    · exact .inr (.inl (by rw [hname']; simp))
    · exact .inr (.inr (.inl (by rw [hschema']; simp)))
    · exact .inr (.inr (.inr (by rw [hschema', hname']; simp)))

/-- It has identifier characters, quotation marks and periods only. -/
lemma isIdentChar_of_mem_printed {r : Str} (hr : r ∈ printedReferences schema name db) :
    ∀ c ∈ r, isIdentChar u c = true ∨ c ∈ "\"`.".toList := by
  intro c hc
  cases db <;>
    simp only [printedReferences, List.mem_cons, List.not_mem_nil, or_false] at hr <;>
    rcases hr with rfl | rfl | rfl | rfl <;>
    simp only [List.mem_append, String.reduceToList, List.mem_cons, List.not_mem_nil,
      or_false] at hc ⊢ <;>
    grind

/-- It is copied by the blanking. -/
lemma copied_of_mem_printed {r : Str} (hr : r ∈ printedReferences schema name db) :
    Copied db r := by
  have hplain : ∀ {s : Str}, (∀ c ∈ s, isIdentChar u c = true) → Copied db s := fun hs =>
    copied_plain fun c hc => ⟨ne_of_isIdentChar hs (by decide) c hc,
      ne_of_isIdentChar hs (identQuote_mem db) c hc⟩
  have hdot : Copied db ".".toList := copied_plain (by cases db <;> simp [identQuote])
  have hquoted : ∀ {s : Str}, (∀ c ∈ s, isIdentChar u c = true) →
      Copied db (identQuote db :: (s ++ [identQuote db])) := fun hs =>
    copied_ident (.of_forall (ne_of_isIdentChar hs (identQuote_mem db)))
  cases db <;>
    simp only [printedReferences, List.mem_cons, List.not_mem_nil, or_false] at hr
  · rcases hr with rfl | rfl
    · exact hquoted hname
    · have h := ((hquoted hschema).append hdot).append (hquoted hname)
      simpa [identQuote] using h
  · rcases hr with rfl | rfl | rfl | rfl
    · exact ((hplain hschema).append hdot).append (hplain hname)
    · have h := ((hplain hschema).append hdot).append (hquoted hname)
      simpa [identQuote] using h
    · have h := ((hquoted hschema).append hdot).append (hplain hname)
      simpa [identQuote] using h
    · have h := ((hquoted hschema).append hdot).append (hquoted hname)
      simpa [identQuote] using h

end Printed

/-! ### The reference is found -/

/-- The tests on the text around an occurrence. -/
lemma isReferenceBetween_iff {before after : Str} :
    isReferenceBetween u before after = true ↔
      (∀ c, before.getLast? = some c → isIdentChar u c = false ∧ c ∉ "\"`.=@".toList) ∧
      (∀ c, after.head? = some c → isIdentChar u c = false ∧ c ≠ '`') ∧
      ¬ " AS ".toList <:+ before := by
  have halias : " AS ".toList.isSuffixOf before = false ↔ ¬ " AS ".toList <:+ before := by
    rw [← List.isSuffixOf_iff_suffix, Bool.not_eq_true]
  rw [isReferenceBetween, Bool.and_eq_true, Bool.and_eq_true, Bool.not_eq_true', Bool.not_eq_true',
    Bool.not_eq_true', Option.any_eq_false, Option.any_eq_false, halias]
  simp only [Bool.or_eq_false_iff, beq_eq_false_iff_ne, and_assoc, List.contains_eq_mem,
    decide_eq_false_iff_not]

/-- `without_string_literals` copies the first character of what follows a complete text. -/
lemma head?_blankLiterals (iq : Char) (bs : Bool) (s : Str) :
    (blankLiterals iq bs none s).head? = s.head? := by
  cases s <;> rfl

/-- A printed reference to a view of identifier characters is found, wherever it stands: outside
literals and quoted identifiers, not behind a character that makes it another name, a column or a
definer, not as an alias, and not as the beginning of a longer name. -/
theorem referencesView_of_printed {pre r post : Str}
    (hschema : ∀ c ∈ schema, isIdentChar u c = true) (hname : ∀ c ∈ name, isIdentChar u c = true)
    (hr : r ∈ printedReferences schema name db) (hpre : Lexed db pre)
    (hbefore : ∀ c, pre.getLast? = some c → isIdentChar u c = false ∧ c ∉ "\"`.=@".toList)
    (halias : ¬ " AS ".toList <:+ pre)
    (hafter : ∀ c, post.head? = some c → isIdentChar u c = false ∧ c ≠ '`') :
    referencesView u (withoutStringLiterals (pre ++ r ++ post) db) schema name db = true := by
  obtain ⟨out, hend, hout⟩ := hpre.exists_blankLiterals
  let rest := blankLiterals (identQuote db) (hasBackslash db) none post
  have hblank : withoutStringLiterals (pre ++ r ++ post) db = out ++ (r ++ rest) := by
    rw [withoutStringLiterals_eq, List.append_assoc, hout,
      copied_of_mem_printed hschema hname hr]
  have hne : r ≠ [] := by
    cases db <;>
      simp only [printedReferences, List.mem_cons, List.not_mem_nil, or_false] at hr <;>
      rcases hr with rfl | rfl | rfl | rfl <;> simp
  have hlast : ∀ c, out.getLast? = some c → c ∉ r := by
    intro c hc hmem
    rw [← hend.getLast?_eq] at hc
    obtain ⟨hident, hpunctuation⟩ := hbefore c hc
    rcases isIdentChar_of_mem_printed hschema hname hr c hmem with h | h
    · rw [hident] at h
      cases h
    · have hsub : "\"`.".toList ⊆ "\"`.=@".toList := by decide
      exact hpunctuation (hsub h)
  have hbetween : isReferenceBetween u out rest = true := by
    have halias' : ¬ " AS ".toList <:+ out := by
      intro hsuffix
      refine halias (hend.suffix ?_ hsuffix)
      cases db <;> simp [identQuote]
    have hhead : rest.head? = post.head? := head?_blankLiterals _ _ post
    rw [isReferenceBetween_iff, ← hend.getLast?_eq, hhead]
    exact ⟨hbefore, hafter, halias'⟩
  rw [referencesView, hblank, List.any_eq_true]
  refine ⟨r, mem_viewNeedles hschema hname hr, ?_⟩
  rw [List.any_eq_true]
  exact ⟨(out, rest), mem_matchIndices hne hlast, hbetween⟩

/-- The text before the reference has a literal that looks like one. -/
lemma lexed_literal_before : Lexed .postgres "SELECT 's.a' FROM " := by
  have hrest : Lexed .postgres " FROM " :=
    .plain_append (t := " FROM ".toList) (s := []) (by simp [identQuote]) .nil
  have hliteral : Lexed .postgres ('\'' :: ("s.a".toList ++ '\'' :: " FROM ".toList)) :=
    .literal (.of_forall (by simp)) hrest
  exact .plain_append (t := "SELECT ".toList) (by simp [identQuote]) hliteral

theorem referencesView_of_printed_behind_literal :
    Lexed .postgres "SELECT 's.a' FROM " ∧
      referencesView .asciiOnly (withoutStringLiterals
        ("SELECT 's.a' FROM ".toList ++ "s.\"z\"".toList ++ " x".toList) .postgres) "s" "z"
        .postgres = true :=
  ⟨lexed_literal_before,
    referencesView_of_printed (by simp; rfl) (by simp; rfl) (by decide) lexed_literal_before
      (by simp; decide) (by decide) (by simp; decide)⟩

end TdExport.Sql
