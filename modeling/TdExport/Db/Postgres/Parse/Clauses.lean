import TdExport.Db.Postgres.Parse.Columns

/-!
# The clauses behind the key of an index

`INCLUDE` and `WHERE`, and the clauses that may stand between them. Three scanners find them: the
key ends without regard to quotation marks, the list after `INCLUDE` with regard to them, and
`WHERE` is looked for outside parentheses.
-/

namespace TdExport.Postgres

open Core

/-! ### Definitions by their clauses -/

/-- A clause between the columns of an index and its predicate. -/
inductive StorageClause where
  | nullsNotDistinct
  | withParams (params : Str)
  | tablespace (word : Str)
  deriving DecidableEq, Repr

def StorageClause.text : StorageClause → Str
  | .nullsNotDistinct => " NULLS NOT DISTINCT"
  | .withParams params => " WITH (" ++ params ++ ")"
  | .tablespace word => " TABLESPACE " ++ word

/-- The list of an `INCLUDE` clause, if there is one. -/
def includeText : Option Str → Str
  | some inside => " INCLUDE (" ++ inside ++ ")"
  | none => []

structure ClauseDef where
  head : Str
  key : Str
  included : Option Str
  clauses : List StorageClause
  predicate : Option Str
  deriving DecidableEq, Repr

namespace ClauseDef

variable (d : ClauseDef)

def whereText : Str :=
  match d.predicate with
  | some pred => " WHERE " ++ pred
  | none => []

/-- What follows the list after `INCLUDE`. -/
def tail : Str := d.clauses.flatMap StorageClause.text ++ d.whereText

def text : Str := d.head ++ "(" ++ d.key ++ ")" ++ includeText d.included ++ d.tail

end ClauseDef

/-- A word without parentheses. -/
structure IsBareWord (w : Str) : Prop extends IsWord w where
  parens : ∀ c ∈ w, c ≠ '(' ∧ c ≠ ')'

/-- The characters that are read while no quotation mark is open. -/
def outsideQuotes : Option Char → Str → Str
  | _, [] => []
  | quote, c :: s =>
    if quote = none then c :: outsideQuotes (quoteAfter quote c) s
    else outsideQuotes (quoteAfter quote c) s

/-- The quotes are closed, and the parentheses outside of them balance. -/
structure QuotedBalance (quote : Option Char) (depth : ℤ) (s : Str) : Prop where
  closed : s.foldl quoteAfter quote = none
  nested : Nested parenWeight depth (outsideQuotes quote s)

/-- The clause is as PostgreSQL prints it; `reserved` words are no names of tablespaces. -/
def StorageClause.Ok (reserved : Str → Prop) : StorageClause → Prop
  | .nullsNotDistinct => True
  | .withParams params => Nested parenWeight 0 params
  | .tablespace word => IsBareWord word ∧ ¬reserved word

structure ClauseDef.WellFormed (reserved : Str → Prop) (d : ClauseDef) : Prop where
  using_head : "USING".toList <:+: toAsciiUppercase d.head
  open_head : '(' ∉ d.head
  key : Nested parenWeight 0 d.key
  included : ∀ inside ∈ d.included, QuotedBalance none 0 inside
  clauses : ∀ clause ∈ d.clauses, clause.Ok reserved
  predicate : ∀ pred ∈ d.predicate, trim pred ≠ []

/-- The list and the predicate are read as they are printed, without the white space around
them. -/
def KeepsClauses (d : ClauseDef) : Prop :=
  (parsePgIndexdef d.text).included = d.included.map trim ∧
    (parsePgIndexdef d.text).predicate = d.predicate.map trim

/-! ### The list after `INCLUDE` -/

lemma outsideQuotes_none (c : Char) (s : Str) :
    outsideQuotes none (c :: s) = c :: outsideQuotes (quoteAfter none c) s := rfl

/-- The list ends at the parenthesis that closes it outside quotes. -/
lemma closingParen_append {quote : Option Char} {depth : ℤ} {inside : Str} (hdepth : 0 ≤ depth)
    (h : QuotedBalance quote depth inside) (rest : Str) :
    closingParen (depth + 1) quote (inside ++ ')' :: rest) = some (inside, rest) := by
  induction inside generalizing quote depth with
  | nil =>
    obtain rfl : quote = none := h.closed
    have hzero : depth = 0 := h.nested
    rw [List.nil_append, closingParen, if_neg (by simp), if_pos ⟨rfl, rfl⟩, if_pos (by omega)]
  | cons c s ih =>
    rw [List.cons_append, closingParen]
    cases quote with
    | some q =>
      have hnext : QuotedBalance (quoteAfter (some q) c) depth s := ⟨h.closed, h.nested⟩
      rw [if_neg (by simp), if_neg (by simp), ih hdepth hnext]
      rfl
    | none =>
      obtain ⟨hge, hnested⟩ : 0 ≤ depth + parenWeight c ∧
        Nested parenWeight (depth + parenWeight c) (outsideQuotes (quoteAfter none c) s) := h.nested
      by_cases hopen : c = '('
      · subst hopen
        rw [parenWeight_open] at hge hnested
        have hnext : QuotedBalance none (depth + 1) s := ⟨h.closed, hnested⟩
        rw [if_pos ⟨rfl, rfl⟩, ih hge hnext]
        rfl
      · by_cases hclose : c = ')'
        · subst hclose
          rw [parenWeight_close] at hge hnested
          have hnext : QuotedBalance none (depth + -1) s := ⟨h.closed, hnested⟩
          have ih := ih hge hnext
          rw [neg_add_cancel_right] at ih
          rw [if_neg (by simp), if_pos ⟨rfl, rfl⟩, if_neg (by omega), add_sub_cancel_right, ih]
          rfl
        · rw [parenWeight_of_ne hopen hclose, add_zero] at hnested
          have hnext : QuotedBalance (quoteAfter none c) depth s := ⟨h.closed, hnested⟩
          rw [if_neg (by simp [hopen]), if_neg (by simp [hclose]), ih hdepth hnext]
          rfl

lemma splitInclude_include {inside : Str} (h : QuotedBalance none 0 inside) (rest : Str) :
    splitInclude (" INCLUDE (" ++ inside ++ ")" ++ rest) = (some (trim inside), rest) := by
  have hstart : trimStart (" INCLUDE (" ++ inside ++ ")" ++ rest) =
      "INCLUDE (" ++ (inside ++ ')' :: rest) := by
    simp [trimStart, isWhitespace]
  have hupper : "INCLUDE (".toList <+:
      toAsciiUppercase ("INCLUDE (" ++ (inside ++ ')' :: rest)) := by
    rw [toAsciiUppercase_append]
    exact ⟨_, rfl⟩
  have hclose := closingParen_append le_rfl h rest
  rw [zero_add] at hclose
  simp only [splitInclude, hstart, if_pos hupper]
  rw [show ("INCLUDE (" ++ (inside ++ ')' :: rest) : Str).drop "INCLUDE (".length =
    inside ++ ')' :: rest from rfl, hclose]

/-! ### What the search for the predicate passes over -/

/-- A piece of text that is not the predicate. -/
inductive Chunk where
  | word (w : Str)
  | group (inside : Str)

def Chunk.text : Chunk → Str
  | .word w => ' ' :: w
  | .group inside => ' ' :: '(' :: (inside ++ [')'])

/-- A word other than `WHERE`, or balanced text in parentheses. -/
def Chunk.Quiet : Chunk → Prop
  | .word w => IsBareWord w ∧ toAsciiUppercase w ≠ "WHERE".toList
  | .group inside => Nested parenWeight 0 inside

/-- The text is empty or goes on with a blank. -/
def AtBlank (s : Str) : Prop := ∀ c ∈ s.head?, c = ' '

/-- A character that is no parenthesis and does not start the keyword. -/
lemma extractWhereClauseFrom_skip {depth : ℤ} {prev : Bool} {c : Char} {s : Str}
    (hopen : c ≠ '(') (hclose : c ≠ ')')
    (h : ¬(depth = 0 ∧ prev = true ∧ "WHERE ".toList <+: toAsciiUppercase (c :: s))) :
    extractWhereClauseFrom depth prev (c :: s) =
      extractWhereClauseFrom depth (isWhitespace c) s := by
  rw [extractWhereClauseFrom, if_neg hopen, if_neg hclose, if_neg h]

lemma extractWhereClauseFrom_blank (prev : Bool) (s : Str) :
    extractWhereClauseFrom 0 prev (' ' :: s) = extractWhereClauseFrom 0 true s := by
  apply extractWhereClauseFrom_skip (by decide) (by decide)
  rintro ⟨-, -, hwhere⟩
  exact absurd (List.cons_prefix_cons.mp hwhere).1 (by decide)

/-- At a blank it does not matter what stood before. -/
lemma AtBlank.extractWhereClauseFrom_eq {s : Str} (h : AtBlank s) (prev prev' : Bool) :
    extractWhereClauseFrom 0 prev s = extractWhereClauseFrom 0 prev' s := by
  cases s with
  | nil => rfl
  | cons c s =>
    obtain rfl := h c rfl
    rw [extractWhereClauseFrom_blank, extractWhereClauseFrom_blank]

/-- A word is passed over when its first character is. -/
lemma extractWhereClauseFrom_black {w : Str}
    (h : ∀ c ∈ w, isWhitespace c = false ∧ c ≠ '(' ∧ c ≠ ')') (s : Str) :
    extractWhereClauseFrom 0 false (w ++ s) = extractWhereClauseFrom 0 false s := by
  induction w with
  | nil => rfl
  | cons c w ih =>
    obtain ⟨hblack, hopen, hclose⟩ := h c List.mem_cons_self
    rw [List.cons_append, extractWhereClauseFrom_skip hopen hclose (by simp), hblack]
    exact ih fun d hd => h d (List.mem_cons_of_mem _ hd)

/-- The keyword with a blank behind it starts a text only if the text starts with this word. -/
lemma not_where_prefix {w s : Str} (hw : IsWord w) (hwhere : toAsciiUppercase w ≠ "WHERE".toList)
    (hs : AtBlank s) : ¬"WHERE ".toList <+: toAsciiUppercase (w ++ s) := by
  rintro ⟨r, hr⟩
  have hupper : IsWord (toAsciiUppercase w) := isWord_toAsciiUppercase_iff.mpr hw
  have hblank : ∀ c ∈ (toAsciiUppercase s).head?, isWhitespace c = true := by
    cases s with
    | nil => simp
    | cons c s =>
      obtain rfl := hs c rfl
      simp [toAsciiUppercase, isWhitespace]
  have hkeyword : IsWord "WHERE".toList := ⟨by simp, by simp [isWhitespace]⟩
  have hsplit : "WHERE ".toList ++ r = "WHERE".toList ++ ' ' :: r := rfl
  have hwords := congrArg splitWhitespace hr
  rw [hsplit, hkeyword.splitWhitespace_append (by simp [isWhitespace]), toAsciiUppercase_append,
    hupper.splitWhitespace_append hblank] at hwords
  exact hwhere (List.cons.inj hwords).1.symm

lemma extractWhereClauseFrom_word {w s : Str} (hw : IsBareWord w)
    (hwhere : toAsciiUppercase w ≠ "WHERE".toList) (hs : AtBlank s) :
    extractWhereClauseFrom 0 true (w ++ s) = extractWhereClauseFrom 0 false s := by
  have hstart := not_where_prefix hw.toIsWord hwhere hs
  cases w with
  | nil => exact absurd rfl hw.ne_nil
  | cons c w =>
    obtain ⟨hopen, hclose⟩ := hw.parens c List.mem_cons_self
    rw [List.cons_append] at hstart ⊢
    rw [extractWhereClauseFrom_skip hopen hclose fun h => hstart h.2.2,
      hw.black c List.mem_cons_self]
    apply extractWhereClauseFrom_black
    intro d hd
    have hd := List.mem_cons_of_mem c hd
    exact ⟨hw.black d hd, hw.parens d hd⟩

/-- Inside parentheses nothing is found. -/
lemma extractWhereClauseFrom_group {depth : ℤ} (prev : Bool) {inside : Str} (hdepth : 0 ≤ depth)
    (h : Nested parenWeight depth inside) (s : Str) :
    extractWhereClauseFrom (depth + 1) prev (inside ++ ')' :: s) =
      extractWhereClauseFrom 0 false s := by
  induction inside generalizing depth prev with
  | nil =>
    obtain rfl : depth = 0 := h
    rw [List.nil_append, extractWhereClauseFrom, if_neg (by decide), if_pos rfl]
    rfl
  | cons c inside ih =>
    obtain ⟨hge, hnested⟩ := h
    by_cases hopen : c = '('
    · subst hopen
      rw [parenWeight_open] at hge hnested
      rw [List.cons_append, extractWhereClauseFrom, if_pos rfl, ih _ hge hnested]
    · by_cases hclose : c = ')'
      · subst hclose
        rw [parenWeight_close] at hge hnested
        have ih := ih false hge hnested
        rw [neg_add_cancel_right] at ih
        rw [List.cons_append, extractWhereClauseFrom, if_neg hopen, if_pos rfl,
          add_sub_cancel_right]
        exact ih
      · rw [parenWeight_of_ne hopen hclose, add_zero] at hnested
        rw [List.cons_append,
          extractWhereClauseFrom_skip hopen hclose fun h => absurd h.1 (by omega),
          ih _ hdepth hnested]

lemma extractWhereClauseFrom_chunk {chunk : Chunk} (h : chunk.Quiet) {s : Str} (hs : AtBlank s)
    (prev prev' : Bool) :
    extractWhereClauseFrom 0 prev (chunk.text ++ s) = extractWhereClauseFrom 0 prev' s := by
  cases chunk with
  | word w =>
    rw [Chunk.text, List.cons_append, extractWhereClauseFrom_blank,
      extractWhereClauseFrom_word h.1 h.2 hs]
    exact hs.extractWhereClauseFrom_eq _ _
  | group inside =>
    have hgroup := extractWhereClauseFrom_group false le_rfl h s
    have hopen : extractWhereClauseFrom 0 true ('(' :: (inside ++ ')' :: s)) =
        extractWhereClauseFrom (0 + 1) false (inside ++ ')' :: s) := by
      rw [extractWhereClauseFrom, if_pos rfl]
      rfl
    rw [Chunk.text, List.cons_append, List.cons_append, List.append_assoc,
      extractWhereClauseFrom_blank, List.singleton_append, hopen, hgroup]
    exact hs.extractWhereClauseFrom_eq _ _

lemma atBlank_chunks {chunks : List Chunk} {s : Str} (hs : AtBlank s) :
    AtBlank (chunks.flatMap Chunk.text ++ s) := by
  cases chunks with
  | nil => exact hs
  | cons chunk chunks => cases chunk <;> simp [AtBlank, Chunk.text]

/-- Chunks are passed over. -/
lemma extractWhereClauseFrom_chunks {chunks : List Chunk} (h : ∀ chunk ∈ chunks, chunk.Quiet)
    {s : Str} (hs : AtBlank s) (prev prev' : Bool) :
    extractWhereClauseFrom 0 prev (chunks.flatMap Chunk.text ++ s) =
      extractWhereClauseFrom 0 prev' s := by
  induction chunks generalizing prev with
  | nil => exact hs.extractWhereClauseFrom_eq _ _
  | cons chunk chunks ih =>
    obtain ⟨hchunk, hchunks⟩ := List.forall_mem_cons.mp h
    rw [List.flatMap_cons, List.append_assoc,
      extractWhereClauseFrom_chunk hchunk (atBlank_chunks hs) prev prev', ih hchunks]

/-- Behind the keyword stands the predicate. -/
lemma extractWhereClauseFrom_where (prev : Bool) {pred : Str} (h : trim pred ≠ []) :
    extractWhereClauseFrom 0 prev (" WHERE " ++ pred) = some (trim pred) := by
  have hwhere : "WHERE ".toList <+: toAsciiUppercase ("WHERE " ++ pred) := by
    rw [toAsciiUppercase_append]
    exact ⟨_, rfl⟩
  have hstart : (" WHERE " ++ pred : Str) = ' ' :: 'W' :: ("HERE " ++ pred) := rfl
  rw [hstart, extractWhereClauseFrom_blank, extractWhereClauseFrom, if_neg (by decide),
    if_neg (by decide), if_pos ⟨rfl, rfl, hwhere⟩]
  exact if_neg h

/-! ### Definitions with clauses -/

/-- The words and the groups of a clause. -/
def StorageClause.chunks : StorageClause → List Chunk
  | .nullsNotDistinct => [.word "NULLS".toList, .word "NOT".toList, .word "DISTINCT".toList]
  | .withParams params => [.word "WITH".toList, .group params]
  | .tablespace word => [.word "TABLESPACE".toList, .word word]

lemma StorageClause.text_eq (clause : StorageClause) :
    clause.text = clause.chunks.flatMap Chunk.text := by
  cases clause with
  | nullsNotDistinct =>
    show (" NULLS NOT DISTINCT" : Str) = [Chunk.word "NULLS".toList, .word "NOT".toList,
      .word "DISTINCT".toList].flatMap Chunk.text
    simp [Chunk.text]
  | withParams params =>
    show (" WITH (" ++ params ++ ")" : Str) = [Chunk.word "WITH".toList,
      .group params].flatMap Chunk.text
    simp [Chunk.text]
  | tablespace word =>
    show (" TABLESPACE " ++ word : Str) = [Chunk.word "TABLESPACE".toList,
      .word word].flatMap Chunk.text
    simp [Chunk.text]

lemma isBareWord_of_all {w : Str} (hne : w ≠ [])
    (h : (w.all fun c => !isWhitespace c && c != '(' && c != ')') = true) : IsBareWord w := by
  have hall : ∀ c ∈ w, isWhitespace c = false ∧ c ≠ '(' ∧ c ≠ ')' := by
    simpa [and_assoc] using h
  exact ⟨⟨hne, fun c hc => (hall c hc).1⟩, fun c hc => (hall c hc).2⟩

/-- `WHERE` in any case. -/
def IsWhere (word : Str) : Prop := toAsciiUppercase word = "WHERE".toList

lemma StorageClause.Ok.quiet {clause : StorageClause} (h : clause.Ok IsWhere) :
    ∀ chunk ∈ clause.chunks, chunk.Quiet := by
  cases clause with
  | nullsNotDistinct =>
    simp only [StorageClause.chunks, List.forall_mem_cons, Chunk.Quiet]
    exact ⟨⟨isBareWord_of_all (by simp) rfl, by decide⟩,
      ⟨isBareWord_of_all (by simp) rfl, by decide⟩,
      ⟨isBareWord_of_all (by simp) rfl, by decide⟩, by simp⟩
  | withParams params =>
    simp only [StorageClause.chunks, List.forall_mem_cons, Chunk.Quiet]
    exact ⟨⟨isBareWord_of_all (by simp) rfl, by decide⟩, h, by simp⟩
  | tablespace word =>
    simp only [StorageClause.chunks, List.forall_mem_cons, Chunk.Quiet]
    exact ⟨⟨isBareWord_of_all (by simp) rfl, by decide⟩, h, by simp⟩

/-- Where a clause starts with another letter there is no list. -/
lemma splitInclude_none {tail : Str}
    (h : tail = [] ∨ ∃ c s, tail = ' ' :: c :: s ∧ c ∈ "NWTD".toList) :
    splitInclude tail = (none, tail) := by
  obtain rfl | ⟨c, s, rfl, hc⟩ := h
  · rfl
  · have hletter : ∀ c ∈ "NWTD".toList, isWhitespace c = false ∧ c.toUpper ≠ 'I' := by
      simp [isWhitespace]
    obtain ⟨hwhite, hupper⟩ := hletter c hc
    have hstart : trimStart (' ' :: c :: s) = c :: s := by
      rw [trimStart, List.dropWhile_cons_of_pos rfl, List.dropWhile_cons_of_neg (by simp [hwhite])]
    have hinclude : ¬"INCLUDE (".toList <+: toAsciiUppercase (c :: s) := by
      intro h
      exact hupper (List.cons_prefix_cons.mp h).1.symm
    simp only [splitInclude, hstart, if_neg hinclude]

lemma splitInclude_included {included : Option Str} {tail : Str}
    (h : ∀ inside ∈ included, QuotedBalance none 0 inside)
    (htail : splitInclude tail = (none, tail)) :
    splitInclude (includeText included ++ tail) = (included.map trim, tail) := by
  cases included with
  | none => exact htail
  | some inside => exact splitInclude_include (h inside rfl) tail

namespace ClauseDef

variable {d : ClauseDef}

lemma splitInclude_tail (d : ClauseDef) : splitInclude d.tail = (none, d.tail) := by
  apply splitInclude_none
  rcases d with ⟨head, key, included, clauses, predicate⟩
  cases clauses with
  | nil =>
    cases predicate with
    | none => exact .inl rfl
    | some pred => exact .inr ⟨_, _, rfl, by decide⟩
  | cons clause clauses =>
    right
    cases clause with
    | nullsNotDistinct => exact ⟨_, _, rfl, by decide⟩
    | withParams params => exact ⟨_, _, rfl, by decide⟩
    | tablespace word => exact ⟨_, _, rfl, by decide⟩

lemma extractWhereClause_tail (hclauses : ∀ clause ∈ d.clauses, clause.Ok IsWhere)
    (hpred : ∀ pred ∈ d.predicate, trim pred ≠ []) :
    extractWhereClause d.tail = d.predicate.map trim := by
  have hchunks : d.clauses.flatMap StorageClause.text =
      (d.clauses.flatMap StorageClause.chunks).flatMap Chunk.text := by
    rw [List.flatMap_assoc]
    exact congrArg d.clauses.flatMap (funext StorageClause.text_eq)
  have hquiet : ∀ chunk ∈ d.clauses.flatMap StorageClause.chunks, chunk.Quiet := by
    intro chunk hchunk
    obtain ⟨clause, hclause, hmem⟩ := List.mem_flatMap.mp hchunk
    exact (hclauses clause hclause).quiet chunk hmem
  have hblank : AtBlank d.whereText := by
    rw [whereText]
    cases d.predicate <;> simp [AtBlank]
  rw [extractWhereClause, tail, hchunks, extractWhereClauseFrom_chunks hquiet hblank true true,
    whereText]
  cases hp : d.predicate with
  | none => rfl
  | some pred => exact extractWhereClauseFrom_where true (hpred pred hp)

end ClauseDef

lemma parsePgIndexdef_of_block {indexdef inner afterBlock rest : Str} {included : Option Str}
    (hblock : findColumnBlock indexdef = some (inner, afterBlock))
    (hinclude : splitInclude afterBlock = (included, rest)) :
    (parsePgIndexdef indexdef).included = included ∧
      (parsePgIndexdef indexdef).predicate = extractWhereClause rest := by
  simp only [parsePgIndexdef, hblock, hinclude, and_self]

/-- The list and the predicate are recovered. -/
theorem parsePgIndexdef_clauses (d : ClauseDef) (h : d.WellFormed IsWhere) : KeepsClauses d := by
  have htext : d.text = d.head ++ '(' :: (d.key ++ ')' :: (includeText d.included ++ d.tail)) := by
    simp [ClauseDef.text]
  have hblock : findColumnBlock d.text = some (d.key, includeText d.included ++ d.tail) := by
    rw [htext, findColumnBlock_append h.using_head h.open_head,
      columnBlockFrom_eq_some_iff le_rfl]
    exact ⟨rfl, h.key⟩
  obtain ⟨hincluded, hpred⟩ :=
    parsePgIndexdef_of_block hblock (splitInclude_included h.included d.splitInclude_tail)
  exact ⟨hincluded, hpred.trans (ClauseDef.extractWhereClause_tail h.clauses h.predicate)⟩

/-- An index with all clauses. -/
def coveringIndex : ClauseDef where
  head := "CREATE UNIQUE INDEX i ON public.t using btree "
  key := "lower(a), b"
  included := some " c, \"d)\" "
  clauses := [.nullsNotDistinct, .withParams "fillfactor=70", .tablespace "fast".toList]
  predicate := some "(a > 'x WHERE (y') "

theorem parsePgIndexdef_clauses_coveringIndex : KeepsClauses coveringIndex := by
  apply parsePgIndexdef_clauses coveringIndex
  have hincluded : QuotedBalance none 0 " c, \"d)\" ".toList := ⟨by decide, by decide⟩
  have hparams : Nested parenWeight 0 "fillfactor=70".toList := by decide
  have hword : IsBareWord "fast".toList := isBareWord_of_all (by simp) rfl
  have hwhere : toAsciiUppercase "fast".toList ≠ "WHERE".toList := by decide
  have hclauses : ∀ clause ∈ coveringIndex.clauses, clause.Ok IsWhere := by
    rintro _ (- | ⟨_, - | ⟨_, - | ⟨_, ⟨⟩⟩⟩⟩)
    · trivial
    · exact hparams
    · exact ⟨hword, hwhere⟩
  exact ⟨by decide, by decide, by decide, by rintro _ ⟨⟩; exact hincluded, hclauses,
    by rintro _ ⟨⟩; decide⟩

/-- A tablespace with the bare name `where`. -/
def whereTablespace : ClauseDef where
  head := "CREATE INDEX i ON public.t USING btree "
  key := "a"
  included := none
  clauses := [.tablespace "where".toList]
  predicate := some "(b)"

/-- The keyword is found in any case, and so in lower case before the predicate. -/
theorem not_keepsClauses_whereTablespace :
    ¬∀ d : ClauseDef, d.WellFormed (· = "WHERE".toList) → KeepsClauses d := by
  intro h
  have hword : IsBareWord "where".toList := isBareWord_of_all (by simp) rfl
  have hwhere : ¬"where".toList = "WHERE".toList := by decide
  have hclauses : ∀ clause ∈ whereTablespace.clauses, clause.Ok (· = "WHERE".toList) := by
    rintro _ (- | ⟨_, ⟨⟩⟩)
    exact ⟨hword, hwhere⟩
  have hwell : whereTablespace.WellFormed (· = "WHERE".toList) :=
    ⟨by decide, by decide, by decide, by rintro _ ⟨⟩, hclauses, by rintro _ ⟨⟩; decide⟩
  have hpred : (parsePgIndexdef whereTablespace.text).predicate ≠
      whereTablespace.predicate.map trim := by
    decide +kernel
  exact hpred (h whereTablespace hwell).2

end TdExport.Postgres
