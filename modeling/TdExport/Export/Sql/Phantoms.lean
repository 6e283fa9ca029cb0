import TdExport.Export.Sql.References
import TdExport.Export.Sql.Tokens

/-!
# Phantom references

When an occurrence that `references_view` accepts in a PostgreSQL definition is no reference to the
view.
-/

namespace TdExport.Sql

open Core

variable {u : Unicode} {schema name ddl : Str}

/-- A name with or without its quotes. -/
def spelled (quotes : Bool) (s : Str) : Str := if quotes then quotedIdent s else s

/-- The token sequence of the definition names the view. -/
def NamesView (schema name ddl : Str) : Prop :=
  ∃ p₁ ∈ tokens ddl, ∃ p₂ ∈ tokens ddl,
    [p₁, ".".toList, p₂] <:+: tokens ddl ∧ Denotes p₁ schema ∧ Denotes p₂ name

instance (schema name ddl : Str) : Decidable (NamesView schema name ddl) :=
  inferInstanceAs (Decidable (∃ p₁ ∈ tokens ddl, ∃ p₂ ∈ tokens ddl,
    [p₁, ".".toList, p₂] <:+: tokens ddl ∧ Denotes p₁ schema ∧ Denotes p₂ name))

/-! ### Places and occurrences -/

/-- A place of a definition at which a spelling of the view stands, between two texts in which the
string literals are blanked out. -/
structure Place (schema name ddl : Str) where
  schemaQuoted : Bool
  nameQuoted : Bool
  before : Str
  after : Str
  blank_ddl : withoutStringLiterals ddl .postgres =
    before ++ (spelled schemaQuoted schema ++ "." ++ spelled nameQuoted name ++ after)

/-- A place that `references_view` finds and accepts. -/
structure Occurrence (u : Unicode) (schema name ddl : Str) extends Place schema name ddl where
  found : (before, after) ∈
    matchIndices (spelled schemaQuoted schema ++ "." ++ spelled nameQuoted name)
      (withoutStringLiterals ddl .postgres)
  accepted : isReferenceBetween u before after = true

lemma mem_viewNeedles_postgres {needle : Str} :
    needle ∈ viewNeedles schema name .postgres ↔
      ∃ schemaQuoted nameQuoted,
        needle = spelled schemaQuoted schema ++ "." ++ spelled nameQuoted name := by
  simp only [viewNeedles, List.flatMap_cons, List.flatMap_nil, List.append_nil, List.cons_append,
    List.nil_append, List.mem_cons, List.not_mem_nil, or_false, Bool.exists_bool, spelled,
    Bool.false_eq_true, if_false, if_true, quotedIdent]
  tauto

/-- `references_view` returns true when it accepts an occurrence. -/
lemma referencesView_iff :
    referencesView u (withoutStringLiterals ddl .postgres) schema name .postgres = true ↔
      Nonempty (Occurrence u schema name ddl) := by
  simp only [referencesView, List.any_eq_true, mem_viewNeedles_postgres]
  constructor
  · rintro ⟨_, ⟨schemaQuoted, nameQuoted, rfl⟩, ⟨before, after⟩, hfound, haccepted⟩
    have hddl := eq_of_mem_matchIndices hfound
    rw [List.append_assoc] at hddl
    exact ⟨⟨⟨schemaQuoted, nameQuoted, before, after, hddl⟩, hfound, haccepted⟩⟩
  · rintro ⟨o⟩
    exact ⟨_, ⟨o.schemaQuoted, o.nameQuoted, rfl⟩, (o.before, o.after), o.found, o.accepted⟩

namespace Place

variable (o : Place schema name ddl)

def schemaText : Str := spelled o.schemaQuoted schema

def nameText : Str := spelled o.nameQuoted name

/-- The text that is looked for. -/
def needle : Str := o.schemaText ++ "." ++ o.nameText

/-- The definition before the occurrence. -/
def pre : Str := ddl.take o.before.length

/-- The definition at the occurrence. -/
def mid : Str := (ddl.drop o.before.length).take o.needle.length

/-- The definition behind the occurrence. -/
def post : Str := (ddl.drop o.before.length).drop o.needle.length

/-- At the place of the occurrence the definition has the three tokens of a reference. -/
def IsReference : Prop :=
  ∃ l₁ p₁ p₂ l₂, pgLexer.pieces ddl = l₁ ++ p₁ :: ".".toList :: p₂ :: l₂ ∧
    l₁.flatten.length = o.before.length ∧ p₁.length = o.schemaText.length ∧
    p₂.length = o.nameText.length ∧ Denotes p₁ schema ∧ Denotes p₂ name

/-- The kinds of phantom references. -/
inductive IsPhantom : Prop
  /-- The occurrence starts inside a quoted identifier or a literal. -/
  | insideQuotes : (lexState o.pre).isQuoted = true → IsPhantom
  /-- The quoted name goes on with a doubled quotation mark. -/
  | longerQuotedName : o.nameQuoted = true → o.post.head? = some '"' → IsPhantom
  /-- The schema is found without the quotes that it needs. -/
  | schemaNeedsQuotes : o.schemaQuoted = false → ¬ IsPlainName schema → IsPhantom
  /-- The name is found without the quotes that it needs. -/
  | nameNeedsQuotes : o.nameQuoted = false → ¬ IsPlainName name → IsPhantom
  /-- The bare schema is the end of a longer word. -/
  | longerSchema {c} : o.schemaQuoted = false → o.pre.getLast? = some c →
      isPgWordChar c = true → IsPhantom
  /-- The bare name is the beginning of a longer word. -/
  | longerName {c} : o.nameQuoted = false → o.post.head? = some c →
      isPgWordChar c = true → IsPhantom

/-! ### The texts around an occurrence -/

lemma ddl_eq : ddl = o.pre ++ (o.mid ++ o.post) := by
  rw [mid, post, List.take_append_drop, pre, List.take_append_drop]

lemma withoutStringLiterals_eq : withoutStringLiterals ddl .postgres =
    o.before ++ (o.needle ++ o.after) := o.blank_ddl

/-- The blanked definition, taken apart where the definition is. -/
lemma blank_eq : blankLiterals '"' false none o.pre = o.before ∧
    blankLiterals '"' false (lexState o.pre).openQuote o.mid = o.needle ∧
    blankLiterals '"' false (pgLexer.run (lexState o.pre) o.mid).openQuote o.post = o.after := by
  have hblank : blankLiterals '"' false none o.pre ++
      (blankLiterals '"' false (lexState o.pre).openQuote o.mid ++
        blankLiterals '"' false (pgLexer.run (lexState o.pre) o.mid).openQuote o.post) =
      o.before ++ (o.needle ++ o.after) := by
    rw [← blankLiterals_append, ← o.withoutStringLiterals_eq]
    conv_rhs => rw [o.ddl_eq]
    exact (blankLiterals_append .start o.pre (o.mid ++ o.post)).symm
  have hlen : ddl.length = o.before.length + (o.needle.length + o.after.length) := by
    have h := congrArg List.length o.withoutStringLiterals_eq
    rw [List.length_append, List.length_append] at h
    rw [← h]
    exact (length_blankLiterals .start ddl).symm
  have hpre : (blankLiterals '"' false none o.pre).length = o.before.length := by
    rw [show blankLiterals '"' false none o.pre = blankLiterals '"' false LexState.start.openQuote
      o.pre from rfl, length_blankLiterals, pre, List.length_take]
    omega
  have hmid : (blankLiterals '"' false (lexState o.pre).openQuote o.mid).length =
      o.needle.length := by
    rw [length_blankLiterals, mid, List.length_take, List.length_drop]
    omega
  obtain ⟨hbefore, hrest⟩ := List.append_inj hblank hpre
  obtain ⟨hneedle, hafter⟩ := List.append_inj hrest hmid
  exact ⟨hbefore, hneedle, hafter⟩

end Place

/-! ### Spellings -/

/-- A name as it is spelled where it needs no more quotes than it has. -/
lemma denotes_spelled {quotes : Bool} {s : Str} (h : quotes = false → IsPlainName s) :
    Denotes (spelled quotes s) s := by
  cases quotes with
  | true => exact .inl rfl
  | false => exact .inr (h rfl)

/-- A token that denotes `s` and is as long as a spelling of `s` is that spelling, or the name
without quotes in another case. -/
lemma Denotes.of_length {quotes : Bool} {p s : Str} (h : Denotes p s)
    (hlen : p.length = (spelled quotes s).length) :
    if quotes then p = quotedIdent s else isBareIdent p = true ∧ IsPlainName s := by
  have hquoted := length_quotedIdent s
  rcases h with rfl | ⟨hbare, rfl⟩
  · cases quotes with
    | true => rfl
    | false =>
      simp only [spelled, Bool.false_eq_true, if_false] at hlen
      omega
  · cases quotes with
    | true =>
      simp only [spelled, if_true, toAsciiLowercase, List.length_map] at hlen hquoted
      omega
    | false => exact ⟨hbare, isPlainName_toAsciiLowercase hbare⟩

lemma Denotes.ne_nil {p s : Str} (h : Denotes p s) : p ≠ [] := by
  rcases h with rfl | ⟨hbare, -⟩
  · exact List.cons_ne_nil _ _
  · rintro rfl
    cases hbare

/-- A spelling with the quotes that it needs is one token. -/
lemma isToken_spelled {quotes : Bool} {s : Str} (h : quotes = false → IsPlainName s) :
    IsToken (spelled quotes s) (if quotes then .closed .ident else .word) := by
  cases quotes with
  | true => exact isToken_quotedIdent s
  | false => exact isToken_bareIdent (h rfl).1

lemma head?_spelled (quotes : Bool) {s : Str} (h : quotes = false → IsPlainName s) :
    ∃ c r, spelled quotes s = c :: r ∧
      if quotes then c = '"' else isPgIdentStart c = true := by
  cases quotes with
  | true => exact ⟨'"', _, rfl, rfl⟩
  | false =>
    obtain ⟨c, r, rfl, hstart, -⟩ := exists_of_isBareIdent (h rfl).1
    exact ⟨c, r, rfl, hstart⟩

lemma isToken_dot : IsToken "." .start := ⟨rfl, rfl, by simp, trivial⟩

/-! ### Which occurrences are references -/

namespace Place

variable {o : Place schema name ddl}

lemma isPlainName_schema (h : ¬ o.IsPhantom) (hq : o.schemaQuoted = false) : IsPlainName schema :=
  by_contra fun hplain => h (.schemaNeedsQuotes hq hplain)

lemma isPlainName_name (h : ¬ o.IsPhantom) (hq : o.nameQuoted = false) : IsPlainName name :=
  by_contra fun hplain => h (.nameNeedsQuotes hq hplain)

/-- The tokens of an occurrence that is no phantom start where the occurrence does. -/
lemma cut_pre (haccepted : isReferenceBetween u o.before o.after = true) (h : ¬ o.IsPhantom)
    (t : Str) : pgLexer.Cut o.pre (o.schemaText ++ t) := by
  obtain ⟨c, r, htext, hhead⟩ := head?_spelled o.schemaQuoted (isPlainName_schema h)
  intro d hd
  rw [schemaText, htext] at hd
  obtain rfl := Option.some_inj.mp hd
  show lexStarts (lexState o.pre) c = true
  cases hst : lexState o.pre with
  | start => rfl
  | word =>
    obtain ⟨w, hw, hword⟩ := isPgWordChar_of_lexState hst
    cases hq : o.schemaQuoted with
    | true =>
      rw [hq] at hhead
      obtain rfl : c = '"' := hhead
      decide
    | false => exact absurd (.longerSchema hq hw hword) h
  | quoted q => exact absurd (.insideQuotes (by rw [hst]; rfl)) h
  | closed q =>
    have hopen : (lexState o.pre).openQuote = none := by
      rw [hst]
      rfl
    have hlast : o.before.getLast? = some q.mark := by
      rw [← o.blank_eq.1, getLast?_blankLiterals hopen, getLast?_of_lexState_closed hst]
    have hforeign := ((isReferenceBetween_iff.mp haccepted).1 _ hlast).2
    cases q with
    | ident => exact absurd (by decide) hforeign
    | literal =>
      have hne : c ≠ '\'' := by
        cases hq : o.schemaQuoted with
        | true =>
          rw [hq] at hhead
          obtain rfl : c = '"' := hhead
          decide
        | false =>
          rw [hq] at hhead
          exact ne_of_isPgWordChar (isPgWordChar_of_identStart hhead) (by decide)
      simpa [lexStarts, Quotes.mark] using hne

section NoPhantom

variable (h : ¬ o.IsPhantom)

include h

lemma isToken_schemaText :
    IsToken o.schemaText (if o.schemaQuoted then .closed .ident else .word) :=
  isToken_spelled (isPlainName_schema h)

lemma isToken_nameText : IsToken o.nameText (if o.nameQuoted then .closed .ident else .word) :=
  isToken_spelled (isPlainName_name h)

lemma cut_schemaText (t : Str) : pgLexer.Cut o.schemaText ("." ++ t) := by
  intro c hc
  obtain rfl : '.' = c := Option.some_inj.mp hc
  show lexStarts (lexState o.schemaText) '.' = true
  rw [(isToken_schemaText h).state_eq]
  cases o.schemaQuoted <;> decide

lemma cut_schemaText_dot : pgLexer.Cut o.schemaText "." := by
  have hcut := cut_schemaText h []
  rwa [List.append_nil] at hcut

lemma lexState_schemaText_dot : lexState (o.schemaText ++ ".") = .start :=
  Segmenter.run_append_of_cut (cut_schemaText_dot h) (by simp)

lemma cut_dot (t : Str) : pgLexer.Cut (o.schemaText ++ ".") t := by
  intro c _
  show lexStarts (lexState (o.schemaText ++ ".")) c = true
  rw [lexState_schemaText_dot h]
  rfl

/-- The needle leaves the lexer where the name does. -/
lemma lexState_needle :
    lexState o.needle = if o.nameQuoted then .closed .ident else .word := by
  have hne : o.nameText ≠ [] := by
    obtain ⟨c, r, htext, -⟩ := head?_spelled o.nameQuoted (isPlainName_name h)
    rw [nameText, htext]
    exact List.cons_ne_nil c r
  exact (Segmenter.run_append_of_cut (cut_dot h o.nameText) hne).trans (isToken_nameText h).state_eq

lemma cut_needle : pgLexer.Cut o.needle o.post := by
  intro c hc
  show lexStarts (lexState o.needle) c = true
  rw [lexState_needle h]
  cases hq : o.nameQuoted with
  | true =>
    have hne : c ≠ '"' := by
      rintro rfl
      exact h (.longerQuotedName hq hc)
    simpa [lexStarts, Quotes.mark] using hne
  | false =>
    have hword : ¬ isPgWordChar c = true := fun hword => h (.longerName hq hc hword)
    simpa [lexStarts] using hword

lemma pieces_needle :
    pgLexer.pieces o.needle = [o.schemaText, ".".toList, o.nameText] := by
  rw [needle, Segmenter.pieces_append (cut_dot h _),
    Segmenter.pieces_append (cut_schemaText_dot h), (isToken_schemaText h).pieces_eq,
    isToken_dot.pieces_eq, (isToken_nameText h).pieces_eq]
  rfl

lemma noLiteral_needle : NoLiteral .start o.needle := by
  have hstate : pgLexer.run .start (o.schemaText ++ ".") = .start := lexState_schemaText_dot h
  rw [needle, noLiteral_append, noLiteral_append, hstate]
  refine ⟨⟨(isToken_schemaText h).noLiteral, ?_⟩, (isToken_nameText h).noLiteral⟩
  have hschema : lexState o.schemaText ≠ .quoted .literal := by
    rw [(isToken_schemaText h).state_eq]
    cases o.schemaQuoted <;> simp
  exact ⟨hschema, trivial⟩

/-- The definition has the text that was looked for, unblanked. -/
lemma mid_eq_needle (haccepted : isReferenceBetween u o.before o.after = true) :
    o.mid = o.needle := by
  obtain ⟨c, r, htext, -⟩ := head?_spelled o.schemaQuoted (isPlainName_schema h)
  have hneedle : o.needle = c :: (r ++ "." ++ o.nameText) := by
    rw [needle, schemaText, htext]
    rfl
  have hstarts : pgLexer.starts (lexState o.pre) c = true := by
    apply cut_pre haccepted h []
    rw [schemaText, htext]
    rfl
  apply eq_of_blankLiterals_eq _ o.blank_eq.2.1
  have hclear := noLiteral_needle h
  rw [hneedle] at hclear ⊢
  refine ⟨?_, ?_⟩
  · intro hst
    rw [hst] at hstarts
    cases hstarts
  · have hnext : lexNext (lexState o.pre) c = lexNext .start c :=
      pgLexer.next_of_starts _ _ hstarts
    rw [hnext]
    exact hclear.2

lemma isReference_of_not_isPhantom (haccepted : isReferenceBetween u o.before o.after = true) :
    o.IsReference := by
  have hcut : pgLexer.Cut o.pre (o.needle ++ o.post) := by
    rw [needle, List.append_assoc, List.append_assoc]
    exact cut_pre haccepted h _
  have hpieces : pgLexer.pieces ddl = pgLexer.pieces o.pre ++
      o.schemaText :: ".".toList :: o.nameText :: pgLexer.pieces o.post := by
    conv_lhs => rw [o.ddl_eq, mid_eq_needle h haccepted]
    rw [Segmenter.pieces_append hcut, Segmenter.pieces_append (cut_needle h), pieces_needle h]
    rfl
  refine ⟨_, _, _, _, hpieces, ?_, rfl, rfl, ?_, ?_⟩
  · have hlen := congrArg List.length o.blank_eq.1
    rw [Segmenter.flatten_pieces, ← hlen]
    exact (length_blankLiterals .start o.pre).symm
  · exact denotes_spelled (isPlainName_schema h)
  · exact denotes_spelled (isPlainName_name h)

end NoPhantom

/-- The texts around the tokens of a reference, with the cuts between them. -/
lemma IsReference.exists_cuts (h : o.IsReference) :
    ∃ p₁ p₂, Denotes p₁ schema ∧ p₁.length = o.schemaText.length ∧
      Denotes p₂ name ∧ p₂.length = o.nameText.length ∧
      pgLexer.Cut o.pre (p₁ ++ ("." ++ (p₂ ++ o.post))) ∧
      pgLexer.Cut (o.pre ++ p₁ ++ ".") (p₂ ++ o.post) ∧
      pgLexer.Cut (o.pre ++ p₁ ++ "." ++ p₂) o.post := by
  obtain ⟨l₁, p₁, p₂, l₂, hpieces, hpre, hlen₁, hlen₂, hp₁, hp₂⟩ := h
  have hddl : ddl = l₁.flatten ++ (p₁ ++ ("." ++ (p₂ ++ l₂.flatten))) := by
    conv_lhs => rw [← pgLexer.flatten_pieces ddl, hpieces]
    simp
  have heq : o.pre = l₁.flatten := by
    rw [pre, ← hpre, hddl, List.take_left]
  have hneedle : o.needle.length = (p₁ ++ ".".toList ++ p₂).length := by
    rw [needle, List.length_append, List.length_append, List.length_append, List.length_append,
      hlen₁, hlen₂]
  have hpost : o.post = l₂.flatten := by
    rw [post, hneedle, ← hpre, hddl, List.drop_left, ← List.append_assoc, ← List.append_assoc,
      List.drop_left]
  rw [heq, hpost]
  refine ⟨p₁, p₂, hp₁, hlen₁, hp₂, hlen₂, ?_, ?_, ?_⟩
  · rw [hddl] at hpieces
    exact Segmenter.cut_of_pieces_eq hpieces rfl
  · have hparts : pgLexer.pieces (l₁.flatten ++ p₁ ++ "." ++ (p₂ ++ l₂.flatten)) =
        (l₁ ++ [p₁, ".".toList]) ++ p₂ :: l₂ := by
      rw [List.append_assoc, List.append_assoc, ← hddl, hpieces]
      simp
    exact Segmenter.cut_of_pieces_eq hparts (by simp)
  · have hparts : pgLexer.pieces (l₁.flatten ++ p₁ ++ "." ++ p₂ ++ l₂.flatten) =
        (l₁ ++ [p₁, ".".toList, p₂]) ++ l₂ := by
      rw [List.append_assoc, List.append_assoc, List.append_assoc, ← hddl, hpieces]
      simp
    exact Segmenter.cut_of_pieces_eq hparts (by simp)

lemma not_isPhantom_of_isReference (h : o.IsReference) : ¬ o.IsPhantom := by
  obtain ⟨p₁, p₂, hp₁, hlen₁, hp₂, hlen₂, hcut₁, hcut₂, hcut₃⟩ := h.exists_cuts
  have hschema := hp₁.of_length hlen₁
  have hname := hp₂.of_length hlen₂
  have hstate : lexState (o.pre ++ p₁ ++ "." ++ p₂) =
      if o.nameQuoted then .closed .ident else .word := by
    have hcut := hcut₂.of_append hp₂.ne_nil
    refine (Segmenter.run_append_of_cut hcut hp₂.ne_nil).trans ?_
    cases hq : o.nameQuoted with
    | true =>
      rw [hq] at hname
      rw [show p₂ = quotedIdent name from hname]
      exact (isToken_quotedIdent name).state_eq
    | false =>
      rw [hq] at hname
      exact (isToken_bareIdent hname.1).state_eq
  obtain ⟨a, r, rfl⟩ := List.exists_cons_of_ne_nil hp₁.ne_nil
  have hstarts : lexStarts (lexState o.pre) a = true := hcut₁ a rfl
  rintro (hquoted | ⟨hq, hhead⟩ | ⟨hq, hplain⟩ | ⟨hq, hplain⟩ | ⟨hq, hlast, hword⟩ |
    ⟨hq, hhead, hword⟩)
  · -- no token starts inside quotes
    cases hst : lexState o.pre <;> rw [hst] at hquoted hstarts
    · cases hquoted
    · cases hquoted
    · cases hstarts
    · cases hquoted
  · -- the quotation mark would double the one that closes the name
    have hnext : lexStarts (lexState (o.pre ++ a :: r ++ "." ++ p₂)) '"' = true := hcut₃ _ hhead
    rw [hstate, hq] at hnext
    cases hnext
  · rw [hq] at hschema
    exact hplain hschema.2
  · rw [hq] at hname
    exact hplain hname.2
  · -- the word before would go on with the schema
    rw [hq] at hschema
    obtain ⟨b, _, hb, hident, -⟩ := exists_of_isBareIdent hschema.1
    obtain ⟨rfl, -⟩ := List.cons.inj hb
    rcases lexState_of_isPgWordChar hlast hword with hst | hst
    · rw [hst, lexStarts, isPgWordChar_of_identStart hident] at hstarts
      cases hstarts
    · cases hst' : lexState o.pre <;> rw [hst'] at hst hstarts
      · cases hst
      · cases hst
      · cases hstarts
      · cases hst
  · -- the name would go on with the word behind it
    have hnext : lexStarts (lexState (o.pre ++ a :: r ++ "." ++ p₂)) _ = true := hcut₃ _ hhead
    rw [hstate, hq] at hnext
    simp [lexStarts, hword] at hnext

end Place

/-- An occurrence is a reference unless it is one of the phantoms. -/
lemma Occurrence.isReference_iff (o : Occurrence u schema name ddl) :
    o.IsReference ↔ ¬ o.IsPhantom :=
  ⟨Place.not_isPhantom_of_isReference,
    fun h => Place.isReference_of_not_isPhantom h o.accepted⟩

/-! ### The token sequence -/

/-- A name is no white space. -/
lemma Denotes.isSpacePiece {p s : Str} (h : Denotes p s) : isSpacePiece p = false := by
  rcases h with rfl | ⟨hbare, -⟩
  · have hlen := length_quotedIdent s
    rw [Sql.isSpacePiece]
    intro c hc
    rw [hc, List.length_singleton] at hlen
    omega
  · obtain ⟨c, r, rfl, hstart, -⟩ := exists_of_isBareIdent hbare
    cases r with
    | nil =>
      have hword := isPgWordChar_of_identStart hstart
      show isPgSpace c = false
      rw [isPgSpace, List.contains_eq_mem, decide_eq_false_iff_not]
      intro hspace
      exact ne_of_isPgWordChar hword (List.mem_append_right "'\".".toList hspace) rfl
    | cons d r => rfl

/-- A reference at the place of an occurrence is one in the token sequence. -/
lemma Place.IsReference.namesView {o : Place schema name ddl} (h : o.IsReference) :
    NamesView schema name ddl := by
  obtain ⟨l₁, p₁, p₂, l₂, hpieces, -, -, -, hp₁, hp₂⟩ := h
  have htokens : tokens ddl = (l₁.filter fun p => !isSpacePiece p) ++
      p₁ :: ".".toList :: p₂ :: l₂.filter fun p => !isSpacePiece p := by
    rw [tokens, hpieces, List.filter_append, List.filter_cons_of_pos (by simp [hp₁.isSpacePiece]),
      List.filter_cons_of_pos (by decide), List.filter_cons_of_pos (by simp [hp₂.isSpacePiece])]
  refine ⟨p₁, by simp [htokens], p₂, by simp [htokens], ?_, hp₁, hp₂⟩
  rw [htokens]
  exact ⟨_, l₂.filter fun p => !isSpacePiece p, by simp; rfl⟩

/-- A definition with one place of the view, which is a reference. -/
def plainDdl : Str := "SELECT a FROM s.z"

lemma not_isPhantom_plainDdl (o : Place "s" "z" plainDdl) : ¬ o.IsPhantom := by
  have honly : ∀ n < 18, ∀ schemaQuoted nameQuoted,
      spelled schemaQuoted "s" ++ ".".toList ++ spelled nameQuoted "z" <+:
        (withoutStringLiterals plainDdl .postgres).drop n →
      n = 14 ∧ schemaQuoted = false ∧ nameQuoted = false := by
    decide +kernel
  have hlen := congrArg List.length o.blank_ddl
  have hlength : (withoutStringLiterals plainDdl .postgres).length = 17 := by decide +kernel
  rw [hlength, List.length_append] at hlen
  have hprefix : o.needle <+: (withoutStringLiterals plainDdl .postgres).drop o.before.length := by
    rw [o.withoutStringLiterals_eq, List.drop_left]
    exact List.prefix_append _ _
  obtain ⟨hbefore, hschema, hname⟩ := honly o.before.length (by omega) _ _ hprefix
  have hpre : o.pre = "SELECT a FROM " := by
    rw [Place.pre, hbefore]
    decide
  have hneedle : o.needle = "s.z" := by
    rw [Place.needle, Place.schemaText, Place.nameText, hschema, hname]
    decide
  have hpost : o.post = [] := by
    rw [Place.post, hbefore, hneedle]
    decide
  rintro (hquoted | ⟨hquoted, -⟩ | ⟨-, hplain⟩ | ⟨-, hplain⟩ | ⟨-, hlast, hword⟩ | ⟨-, hhead, -⟩)
  · rw [hpre] at hquoted
    exact absurd hquoted (by decide +kernel)
  · rw [hname] at hquoted
    cases hquoted
  · exact hplain ⟨by decide, by decide⟩
  · exact hplain ⟨by decide, by decide⟩
  · rw [hpre] at hlast
    cases hlast
    exact absurd hword (by decide)
  · rw [hpost] at hhead
    cases hhead

end TdExport.Sql
