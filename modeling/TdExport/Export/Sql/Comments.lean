import TdExport.Core.Parted
import TdExport.Export.Sql.Basic

/-!
# Comments with names

The lines of the file that are comments and contain a name. They are read as one comment, by
PostgreSQL, where comments nest, and by MySQL, where they do not.
-/

namespace TdExport.Sql

open Core

/-- `write_cross_schema_sql`: the statements that refer to other schemas. -/
def writeCrossSchemaSql (schema : Str) (statements : List Str) : Str :=
  writeln ("/* Cross-schema : " ++ commentText schema ++
      " — 모든 스키마 파일을 실행한 뒤 실행 */") ++
    writeln "SET client_encoding = 'UTF8';" ++
    writeln "SET standard_conforming_strings = on;" ++
    writeln "SET search_path = '';" ++ writeln [] ++ statements.flatMap writeln

/-! ### Block comments -/

/-- What follows the mark that closes a comment in which `depth` more comments are open. -/
def skipComment (nested : Bool) : ℕ → Str → Option Str
  | _, [] => none
  | _, [_] => none
  | depth, c :: d :: s =>
    if c = '*' ∧ d = '/' then
      match depth with
      | 0 => some s
      | depth + 1 => skipComment nested depth s
    else if nested = true ∧ c = '/' ∧ d = '*' then skipComment nested (depth + 1) s
    else skipComment nested depth (d :: s)

/-- What follows the comment at the start of `s`. -/
def lexComment (nested : Bool) : Str → Option Str
  | '/' :: '*' :: s => skipComment nested 0 s
  | _ => none

/-- The two characters do not open or close a comment. -/
def Unmarked (c d : Char) : Prop := ¬(c = '/' ∧ d = '*') ∧ ¬(c = '*' ∧ d = '/')

instance : DecidableRel Unmarked := fun c d =>
  inferInstanceAs (Decidable (¬(c = '/' ∧ d = '*') ∧ ¬(c = '*' ∧ d = '/')))

/-- Text without marks is skipped up to the mark that closes the comment. -/
lemma skipComment_append (nested : Bool) {s : Str} (h : (s ++ ['*']).IsChain Unmarked)
    (rest : Str) : skipComment nested 0 (s ++ '*' :: '/' :: rest) = some rest := by
  induction s with
  | nil => rfl
  | cons c s ih =>
    obtain ⟨d, t, hd⟩ : ∃ d t, s ++ ['*'] = d :: t :=
      List.exists_cons_of_ne_nil (by simp)
    have htext : s ++ '*' :: '/' :: rest = d :: (t ++ '/' :: rest) := by
      rw [← List.cons_append, ← hd]
      simp
    have hmarked : Unmarked c d := by
      rw [List.cons_append, hd] at h
      exact (List.isChain_cons_cons.mp h).1
    have ih := ih h.tail
    rw [htext] at ih
    rw [List.cons_append, htext, skipComment, if_neg hmarked.2,
      if_neg fun hopen => hmarked.1 hopen.2, ih]

/-! ### The text of a comment -/

/-- A blank for a line break. -/
def blankBreak (c : Char) : Char := if c = '\n' ∨ c = '\r' then ' ' else c

lemma commentText_eq (name : Str) :
    commentText name = (parted '*' ' ' '/' (parted '/' ' ' '*' name)).map blankBreak := by
  have hopen : replaceStr "/*" "/ *" name = parted '/' ' ' '*' name :=
    replaceStr_eq_parted (by decide) name
  have hclose : ∀ s : Str, replaceStr "*/" "* /" s = parted '*' ' ' '/' s :=
    replaceStr_eq_parted (by decide)
  rw [commentText, hopen, hclose, replaceChars, List.map_eq_flatMap]
  congr 1
  funext c
  rw [blankBreak]
  split_ifs <;> rfl

lemma blankBreak_eq {c d : Char} (hd : d ≠ ' ') (h : blankBreak c = d) : c = d := by
  rw [blankBreak] at h
  split_ifs at h
  · exact absurd h.symm hd
  · exact h

/-- The second replacement makes no mark again that the first one took away. -/
lemma isChain_commentText (name : Str) : (commentText name).IsChain Unmarked := by
  have hall : name.IsChain fun c d => ¬(c = '/' ∧ d = '*') ∨ (c = '/' ∧ d = '*') :=
    List.isChain_iff_forall_rel_of_append_cons_cons.mpr fun c d _ _ _ => (em _).symm
  have hopen : (parted '/' ' ' '*' name).IsChain fun c d => ¬(c = '/' ∧ d = '*') :=
    isChain_parted hall (by decide) (by decide)
  have hrest : (parted '/' ' ' '*' name).IsChain fun c d => Unmarked c d ∨ (c = '*' ∧ d = '/') := by
    refine hopen.imp fun c d hcd => ?_
    by_cases hclose : c = '*' ∧ d = '/'
    · exact .inr hclose
    · exact .inl ⟨hcd, hclose⟩
  have hclose : (parted '*' ' ' '/' (parted '/' ' ' '*' name)).IsChain Unmarked :=
    isChain_parted hrest (by decide) (by decide)
  rw [commentText_eq, List.isChain_map]
  refine hclose.imp fun c d hcd => ⟨fun h => hcd.1 ?_, fun h => hcd.2 ?_⟩
  · exact ⟨blankBreak_eq (by decide) h.1, blankBreak_eq (by decide) h.2⟩
  · exact ⟨blankBreak_eq (by decide) h.1, blankBreak_eq (by decide) h.2⟩

lemma not_mem_commentText (name : Str) :
    '\n' ∉ commentText name ∧ '\r' ∉ commentText name := by
  have hbreak : ∀ c, blankBreak c ≠ '\n' ∧ blankBreak c ≠ '\r' := by
    intro c
    rw [blankBreak]
    split_ifs with hc
    · decide
    · exact not_or.mp hc
  rw [commentText_eq]
  constructor
  · rw [List.mem_map]
    rintro ⟨c, -, hc⟩
    exact (hbreak c).1 hc
  · rw [List.mem_map]
    rintro ⟨c, -, hc⟩
    exact (hbreak c).2 hc

/-! ### The lines -/

/-- What the name in a comment is the name of. -/
inductive Named where
  | database
  | table
  | crossSchema
  deriving DecidableEq, Repr

/-- The line for a name. -/
def Named.line (named : Named) (name : Str) : Str :=
  match named with
  | .database => "/* Database : " ++ commentText name ++ " */"
  | .table => "/* Table : " ++ commentText name ++ " */"
  | .crossSchema =>
    "/* Cross-schema : " ++ commentText name ++ " — 모든 스키마 파일을 실행한 뒤 실행 */"

lemma line_writeHeader (schema : Str) (dbType : DbType) :
    writeln (Named.database.line schema) <+: writeHeader schema dbType :=
  List.prefix_append _ _

lemma line_relationBlock (t : TableDef) :
    writeln (Named.table.line t.tableName) <+: relationBlock t :=
  List.prefix_append _ _

lemma line_writeCrossSchemaSql (schema : Str) (statements : List Str) :
    writeln (Named.crossSchema.line schema) <+: writeCrossSchemaSql schema statements := by
  simp only [writeCrossSchemaSql, List.append_assoc]
  exact List.prefix_append _ _

/-- Blanks keep a text apart from what stands around it. -/
lemma isChain_between {before s after : Str} (hbefore : before.IsChain Unmarked)
    (hs : s.IsChain Unmarked) (hafter : (' ' :: after).IsChain Unmarked) :
    (before ++ ' ' :: (s ++ ' ' :: after)).IsChain Unmarked := by
  have hblank : ∀ c, Unmarked c ' ' ∧ Unmarked ' ' c := by
    simp [Unmarked]
  have hrest : (s ++ ' ' :: after).IsChain Unmarked :=
    hs.append hafter fun c _ d hd => by
      obtain rfl := Option.some_inj.mp hd
      exact (hblank c).1
  have hmiddle : (' ' :: (s ++ ' ' :: after)).IsChain Unmarked :=
    hrest.cons fun d _ => (hblank d).2
  exact hbefore.append hmiddle fun c _ d hd => by
    obtain rfl := Option.some_inj.mp hd
    exact (hblank c).1

/-- What stands before the name, up to a blank. -/
def Named.before : Named → Str
  | .database => " Database :"
  | .table => " Table :"
  | .crossSchema => " Cross-schema :"

/-- What stands behind the name, from a blank on. -/
def Named.after : Named → Str
  | .crossSchema => "— 모든 스키마 파일을 실행한 뒤 실행 "
  | _ => []

lemma Named.line_eq (named : Named) (name : Str) :
    named.line name =
      '/' :: '*' :: ((named.before ++ ' ' :: (commentText name ++ ' ' :: named.after)) ++
        ['*', '/']) := by
  cases named with
  | database =>
    show ("/* Database : " ++ commentText name ++ " */" : Str) =
      '/' :: '*' :: ((" Database :" ++ ' ' :: (commentText name ++ [' '])) ++ ['*', '/'])
    simp
  | table =>
    show ("/* Table : " ++ commentText name ++ " */" : Str) =
      '/' :: '*' :: ((" Table :" ++ ' ' :: (commentText name ++ [' '])) ++ ['*', '/'])
    simp
  | crossSchema =>
    show ("/* Cross-schema : " ++ commentText name ++
        " — 모든 스키마 파일을 실행한 뒤 실행 */" : Str) =
      '/' :: '*' :: ((" Cross-schema :" ++ ' ' :: (commentText name ++
        ' ' :: "— 모든 스키마 파일을 실행한 뒤 실행 ")) ++ ['*', '/'])
    simp

lemma Named.isChain_line (named : Named) (name : Str) :
    ((named.before ++ ' ' :: (commentText name ++ ' ' :: named.after)) ++ ['*']).IsChain
      Unmarked := by
  have hbefore : named.before.IsChain Unmarked := by
    cases named <;> decide
  have hafter : (' ' :: (named.after ++ ['*'])).IsChain Unmarked := by
    cases named <;> decide
  have hbetween := isChain_between hbefore (isChain_commentText name) hafter
  simpa using hbetween

/-- No mark and no line break is left in a name, and the line made with it is one comment, whether
comments nest or not, that ends with the line. -/
theorem commentText_safe (name : Str) :
    (∀ text ∈ (["/*", "*/", "\n", "\r"] : List Str), ¬text <:+: commentText name) ∧
      ∀ (named : Named) (nested : Bool) (rest : Str),
        "*/".toList <:+ named.line name ∧
          lexComment nested (named.line name ++ rest) = some rest := by
  refine ⟨?_, fun named nested rest => ⟨?_, ?_⟩⟩
  · have hopen : ¬['/', '*'] <:+: commentText name :=
      not_infix_of_isChain ((isChain_commentText name).imp fun _ _ h => h.1)
    have hclose : ¬['*', '/'] <:+: commentText name :=
      not_infix_of_isChain ((isChain_commentText name).imp fun _ _ h => h.2)
    have hline : ¬['\n'] <:+: commentText name := by
      rw [List.singleton_infix_iff]
      exact (not_mem_commentText name).1
    have hreturn : ¬['\r'] <:+: commentText name := by
      rw [List.singleton_infix_iff]
      exact (not_mem_commentText name).2
    simpa using ⟨hopen, hclose, hline, hreturn⟩
  · rw [named.line_eq]
    exact ⟨'/' :: '*' :: (named.before ++ ' ' :: (commentText name ++ ' ' :: named.after)), rfl⟩
  · rw [named.line_eq, List.cons_append, List.cons_append, List.append_assoc]
    exact skipComment_append nested (named.isChain_line name) rest

end TdExport.Sql
