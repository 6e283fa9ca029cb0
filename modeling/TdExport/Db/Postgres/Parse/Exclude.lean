import TdExport.Db.Postgres.Parse.Clauses

/-!
# Exclusion constraints

The indexes of exclusion constraints are read from the definition of the constraint, by the parser
of index definitions. There the predicate is not the last clause: what is stated here is when the
predicate is read all the same.
-/

namespace TdExport.Postgres

open Core

/-- When a constraint is checked. -/
inductive Deferral where
  | notDeferrable
  | deferrable
  | initiallyDeferred
  deriving DecidableEq, Repr

def Deferral.text : Deferral → Str
  | .notDeferrable => []
  | .deferrable => " DEFERRABLE"
  | .initiallyDeferred => " DEFERRABLE INITIALLY DEFERRED"

/-- The definition that PostgreSQL prints for an exclusion constraint, part by part. -/
structure ExcludeDef where
  method : Str
  items : Str
  included : Option Str
  params : Option Str
  predicate : Option Str
  deferral : Deferral
  deriving DecidableEq, Repr

namespace ExcludeDef

variable (d : ExcludeDef)

def paramsText : Str :=
  match d.params with
  | some params => " WITH (" ++ params ++ ")"
  | none => []

def whereText : Str :=
  match d.predicate with
  | some pred => " WHERE " ++ ("(" ++ pred ++ ")")
  | none => []

/-- What follows the list after `INCLUDE`. -/
def tail : Str := d.paramsText ++ d.whereText ++ d.deferral.text

def text : Str :=
  "EXCLUDE USING " ++ d.method ++ " (" ++ d.items ++ ")" ++ includeText d.included ++ d.tail

end ExcludeDef

/-- Balanced text without quotation marks. -/
structure UnquotedBalance (s : Str) : Prop where
  unquoted : ∀ c ∈ s, c ≠ '"' ∧ c ≠ '\''
  nested : Nested parenWeight 0 s

structure ExcludeDef.WellFormed (d : ExcludeDef) : Prop where
  open_method : '(' ∉ d.method
  items : UnquotedBalance d.items
  included : ∀ cols ∈ d.included, UnquotedBalance cols
  params : ∀ params ∈ d.params, UnquotedBalance params
  predicate : ∀ pred ∈ d.predicate, Nested parenWeight 0 pred

def parenthesized (s : Str) : Str := "(" ++ s ++ ")"

/-- The predicate in its parentheses is read, and nothing else. -/
def KeepsPredicate (d : ExcludeDef) : Prop :=
  (parsePgIndexdef d.text).predicate = d.predicate.map parenthesized

/-! ### Text without quotation marks -/

lemma outsideQuotes_of_forall {s : Str} (h : ∀ c ∈ s, c ≠ '"' ∧ c ≠ '\'') :
    outsideQuotes none s = s ∧ s.foldl quoteAfter none = none := by
  induction s with
  | nil => exact ⟨rfl, rfl⟩
  | cons c s ih =>
    obtain ⟨hc, hs⟩ := List.forall_mem_cons.mp h
    have hnext : quoteAfter none c = none := if_neg (not_or.mpr hc)
    obtain ⟨houtside, hclosed⟩ := ih hs
    rw [outsideQuotes_none, List.foldl_cons, hnext, houtside]
    exact ⟨rfl, hclosed⟩

lemma UnquotedBalance.quotedBalance {s : Str} (h : UnquotedBalance s) :
    QuotedBalance none 0 s := by
  obtain ⟨houtside, hclosed⟩ := outsideQuotes_of_forall h.unquoted
  refine ⟨hclosed, ?_⟩
  rw [houtside]
  exact h.nested

/-! ### The clauses behind the list -/

namespace ExcludeDef

variable {d : ExcludeDef}

lemma splitInclude_tail (d : ExcludeDef) : splitInclude d.tail = (none, d.tail) := by
  apply splitInclude_none
  rcases d with ⟨method, items, included, params, predicate, deferral⟩
  cases params with
  | some params => exact .inr ⟨_, _, rfl, by decide⟩
  | none =>
    cases predicate with
    | some pred => exact .inr ⟨_, _, rfl, by decide⟩
    | none =>
      cases deferral with
      | notDeferrable => exact .inl rfl
      | deferrable => exact .inr ⟨_, _, rfl, by decide⟩
      | initiallyDeferred => exact .inr ⟨_, _, rfl, by decide⟩

/-- What stands before the predicate is passed over. -/
lemma extractWhereClause_tail (hparams : ∀ params ∈ d.params, UnquotedBalance params) :
    extractWhereClause d.tail = extractWhereClauseFrom 0 true (d.whereText ++ d.deferral.text) := by
  have hblank : AtBlank (d.whereText ++ d.deferral.text) := by
    rcases d with ⟨method, items, included, params, predicate, deferral⟩
    cases predicate with
    | some pred => rintro c ⟨⟩; rfl
    | none =>
      cases deferral with
      | notDeferrable => rintro c ⟨⟩
      | deferrable => rintro c ⟨⟩; rfl
      | initiallyDeferred => rintro c ⟨⟩; rfl
  cases hp : d.params with
  | none =>
    have htail : d.tail = d.whereText ++ d.deferral.text := by
      rw [tail, paramsText, hp]
      rfl
    rw [extractWhereClause, htail]
  | some params =>
    have htail : d.tail = [Chunk.word "WITH".toList, .group params].flatMap Chunk.text ++
        (d.whereText ++ d.deferral.text) := by
      rw [tail, paramsText, hp]
      simp [Chunk.text]
    have hquiet : ∀ chunk ∈ [Chunk.word "WITH".toList, .group params], chunk.Quiet :=
      @StorageClause.Ok.quiet (.withParams params) (hparams params hp).nested
    rw [extractWhereClause, htail, extractWhereClauseFrom_chunks hquiet hblank true true]

/-- A constraint without a predicate. -/
lemma extractWhereClause_deferral (deferral : Deferral) :
    extractWhereClause deferral.text = none := by
  have hdeferrable : Chunk.Quiet (.word "DEFERRABLE".toList) :=
    ⟨isBareWord_of_all (by simp) rfl, by decide⟩
  have hinitially : Chunk.Quiet (.word "INITIALLY".toList) :=
    ⟨isBareWord_of_all (by simp) rfl, by decide⟩
  have hdeferred : Chunk.Quiet (.word "DEFERRED".toList) :=
    ⟨isBareWord_of_all (by simp) rfl, by decide⟩
  have hnone {s : Str} {chunks : List Chunk} (hs : s = chunks.flatMap Chunk.text)
      (h : ∀ chunk ∈ chunks, chunk.Quiet) : extractWhereClause s = none := by
    have hchunks := extractWhereClauseFrom_chunks h (s := []) (by simp [AtBlank]) true true
    rw [extractWhereClause, hs, ← List.append_nil (chunks.flatMap Chunk.text), hchunks]
    rfl
  cases deferral with
  | notDeferrable => rfl
  | deferrable =>
    have htext : (" DEFERRABLE" : Str) = [Chunk.word "DEFERRABLE".toList].flatMap Chunk.text := by
      simp [Chunk.text]
    exact hnone htext (by simpa using hdeferrable)
  | initiallyDeferred =>
    have htext : (" DEFERRABLE INITIALLY DEFERRED" : Str) = [Chunk.word "DEFERRABLE".toList,
        .word "INITIALLY".toList, .word "DEFERRED".toList].flatMap Chunk.text := by
      simp [Chunk.text]
    exact hnone htext (List.forall_mem_cons.mpr ⟨hdeferrable, List.forall_mem_cons.mpr
      ⟨hinitially, List.forall_mem_cons.mpr ⟨hdeferred, by simp⟩⟩⟩)

lemma predicate_text (h : d.WellFormed) :
    (parsePgIndexdef d.text).predicate =
      d.predicate.map fun pred => trim (parenthesized pred ++ d.deferral.text) := by
  have htext : d.text = ("EXCLUDE USING " ++ d.method ++ " ") ++
      '(' :: (d.items ++ ')' :: (includeText d.included ++ d.tail)) := by
    unfold text
    simp
  have husing : "USING".toList <:+: toAsciiUppercase ("EXCLUDE USING " ++ d.method ++ " ") := by
    refine ⟨"EXCLUDE ".toList, ' ' :: toAsciiUppercase (d.method ++ " "), ?_⟩
    have hcase : toAsciiUppercase "EXCLUDE USING " =
        "EXCLUDE ".toList ++ "USING".toList ++ [' '] := by
      simp [toAsciiUppercase]
    simp only [toAsciiUppercase_append, hcase, List.append_assoc, List.singleton_append]
  have hopen : '(' ∉ ("EXCLUDE USING " ++ d.method ++ " " : Str) := by
    simp [h.open_method]
  have hblock : findColumnBlock d.text = some (d.items, includeText d.included ++ d.tail) := by
    rw [htext, findColumnBlock_append husing hopen, columnBlockFrom_eq_some_iff le_rfl]
    exact ⟨rfl, h.items.nested⟩
  have hincluded : ∀ inside ∈ d.included, QuotedBalance none 0 inside :=
    fun cols hcols => (h.included cols hcols).quotedBalance
  rw [(parsePgIndexdef_of_block hblock
    (splitInclude_included hincluded d.splitInclude_tail)).2, extractWhereClause_tail h.params,
    whereText]
  cases d.predicate with
  | none => exact extractWhereClause_deferral d.deferral
  | some pred =>
    have hpred : trim (parenthesized pred ++ d.deferral.text) ≠ [] := by
      have hmem : '(' ∈ trim (parenthesized pred ++ d.deferral.text) :=
        (mem_trim rfl).mpr List.mem_cons_self
      exact List.ne_nil_of_mem hmem
    exact extractWhereClauseFrom_where true hpred

/-- Parentheses have no white space around them. -/
lemma trim_parenthesized (s : Str) : trim (parenthesized s) = parenthesized s := by
  have hstart : (parenthesized s).dropWhile isWhitespace = parenthesized s :=
    List.dropWhile_cons_of_neg (by decide)
  rw [trim, hstart, trimEnd]
  exact List.rdropWhile_concat_neg _ _ _ (by decide)

/-- The words behind the predicate stay with it. -/
lemma trim_parenthesized_deferral {deferral : Deferral} (h : deferral ≠ .notDeferrable) (s : Str) :
    trim (parenthesized s ++ deferral.text) ≠ parenthesized s := by
  intro heq
  have hcount := congrArg (List.count 'D') heq
  have hdeferral : 0 < deferral.text.count 'D' := by
    cases deferral with
    | notDeferrable => exact absurd rfl h
    | deferrable => exact List.count_pos_iff.mpr (List.mem_cons_of_mem _ List.mem_cons_self)
    | initiallyDeferred => exact List.count_pos_iff.mpr (List.mem_cons_of_mem _ List.mem_cons_self)
  rw [count_trim rfl, List.count_append] at hcount
  omega

end ExcludeDef

/-- The predicate is read alone unless the constraint is deferrable. -/
theorem parsePgIndexdef_exclude_iff (d : ExcludeDef) (h : d.WellFormed) :
    KeepsPredicate d ↔ ¬(d.predicate.isSome = true ∧ d.deferral ≠ .notDeferrable) := by
  rw [KeepsPredicate, ExcludeDef.predicate_text h]
  cases d.predicate with
  | none => simp
  | some pred =>
    simp only [Option.map_some, Option.some_inj, Option.isSome_some, true_and, ne_eq, not_not]
    constructor
    · intro htrim
      by_contra hdeferral
      exact ExcludeDef.trim_parenthesized_deferral hdeferral pred htrim
    · intro hdeferral
      have htext : parenthesized pred ++ d.deferral.text = parenthesized pred := by
        rw [hdeferral]
        exact List.append_nil _
      rw [htext, ExcludeDef.trim_parenthesized]

/-- A deferrable constraint with a predicate. -/
def bookingExclude : ExcludeDef where
  method := "gist"
  items := "room WITH =, during WITH &&"
  included := none
  params := none
  predicate := some "NOT cancelled"
  deferral := .deferrable

lemma wellFormed_bookingExclude : bookingExclude.WellFormed := by
  have hunquoted : (bookingExclude.items.all fun c => c != '"' && c != '\'') = true := rfl
  have hitems : UnquotedBalance bookingExclude.items := ⟨by simpa using hunquoted, by decide⟩
  exact ⟨by decide, hitems, by rintro _ ⟨⟩, by rintro _ ⟨⟩, by rintro _ ⟨⟩; decide⟩

theorem parsePgIndexdef_exclude_iff_bookingExclude :
    KeepsPredicate bookingExclude ↔
      ¬(bookingExclude.predicate.isSome = true ∧ bookingExclude.deferral ≠ .notDeferrable) :=
  parsePgIndexdef_exclude_iff bookingExclude wellFormed_bookingExclude

/-- The predicate of a deferrable constraint is read together with the word that follows. -/
theorem not_keepsPredicate_bookingExclude :
    bookingExclude.WellFormed ∧
      (parsePgIndexdef bookingExclude.text).predicate = some "(NOT cancelled) DEFERRABLE".toList ∧
      ¬KeepsPredicate bookingExclude := by
  have hpred : (parsePgIndexdef bookingExclude.text).predicate =
      some "(NOT cancelled) DEFERRABLE".toList := by
    decide +kernel
  refine ⟨wellFormed_bookingExclude, hpred, ?_⟩
  rw [KeepsPredicate, hpred]
  decide

end TdExport.Postgres
