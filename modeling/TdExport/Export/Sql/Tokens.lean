import TdExport.Core.Segments
import TdExport.Export.Sql.Lexing

/-!
# The tokens of a PostgreSQL definition

Literals, quoted identifiers, words and single characters, and what `without_string_literals` does
to them.
-/

namespace TdExport.Sql

open Core

/-! ### The lexer -/

/-- The characters of a word. -/
def isPgWordChar (c : Char) : Bool := c.isAlphanum || c == '_' || c == '$' || 128 ≤ c.toNat

/-- The characters with which the name of an object may start. -/
def isPgIdentStart (c : Char) : Bool := c.isAlpha || c == '_' || 128 ≤ c.toNat

def isPgSpace (c : Char) : Bool := " \t\n\r\x0b\x0c".toList.contains c

inductive Quotes where
  | literal
  | ident
  deriving DecidableEq, Repr

def Quotes.mark : Quotes → Char
  | .literal => '\''
  | .ident => '"'

/-- In `closed` a quotation mark has been read: it closes the quotes unless another one follows. -/
inductive LexState where
  | start
  | word
  | quoted (q : Quotes)
  | closed (q : Quotes)
  deriving DecidableEq, Repr

/-- The state after the first character of a token. -/
def lexFresh (c : Char) : LexState :=
  if c = '\'' then .quoted .literal
  else if c = '"' then .quoted .ident
  else if isPgWordChar c then .word
  else .start

def lexNext : LexState → Char → LexState
  | .start, c => lexFresh c
  | .word, c => lexFresh c
  | .quoted q, c => if c = q.mark then .closed q else .quoted q
  | .closed q, c => if c = q.mark then .quoted q else lexFresh c

def lexStarts : LexState → Char → Bool
  | .start, _ => true
  | .word, c => !isPgWordChar c
  | .quoted _, _ => false
  | .closed q, c => c != q.mark

/-- The lexer of PostgreSQL. -/
def pgLexer : Segmenter LexState Char where
  start := .start
  next := lexNext
  starts := lexStarts
  starts_start _ := rfl
  next_of_starts st c h := by
    cases st with
    | start => rfl
    | word => rfl
    | quoted q => cases h
    | closed q => exact if_neg (by simpa [lexStarts] using h)

/-- The state after `s`. -/
abbrev lexState (s : Str) : LexState := pgLexer.run .start s

def LexState.isQuoted : LexState → Bool
  | .quoted _ => true
  | _ => false

def isSpacePiece (p : Str) : Bool :=
  match p with
  | [c] => isPgSpace c
  | _ => false

/-- The tokens of a definition, each as its text. -/
def tokens (ddl : Str) : List Str := (pgLexer.pieces ddl).filter fun p => !isSpacePiece p

/-! ### Names -/

/-- A word that can be the name of an object. -/
def isBareIdent (p : Str) : Bool := p.head?.any isPgIdentStart && p.all isPgWordChar

def quotedIdent (s : Str) : Str := "\"" ++ doubleQuotes '"' s ++ "\""

/-- The token `p` is an identifier that denotes `s`: quoted, or a word in any case whose lower case
is `s`. -/
def Denotes (p s : Str) : Prop :=
  p = quotedIdent s ∨ isBareIdent p = true ∧ toAsciiLowercase p = s

instance (p s : Str) : Decidable (Denotes p s) :=
  inferInstanceAs (Decidable (p = quotedIdent s ∨ isBareIdent p = true ∧ toAsciiLowercase p = s))

/-- A name that a bare word denotes as it stands. -/
def IsPlainName (s : Str) : Prop := isBareIdent s = true ∧ toAsciiLowercase s = s

lemma isPgWordChar_of_identStart {c : Char} (h : isPgIdentStart c = true) :
    isPgWordChar c = true := by
  simp only [isPgIdentStart, isPgWordChar, Bool.or_eq_true, Char.isAlphanum] at h ⊢
  tauto

/-- No character of a word is a quotation mark, a period or white space. -/
lemma isPgWordChar_punctuation : ∀ c ∈ "'\". \t\n\r\x0b\x0c".toList, isPgWordChar c = false := by
  simp [isPgWordChar]

lemma ne_of_isPgWordChar {c d : Char} (hc : isPgWordChar c = true)
    (hd : d ∈ "'\". \t\n\r\x0b\x0c".toList) : c ≠ d := by
  rintro rfl
  rw [isPgWordChar_punctuation c hd] at hc
  cases hc

lemma exists_of_isBareIdent {p : Str} (h : isBareIdent p = true) :
    ∃ c s, p = c :: s ∧ isPgIdentStart c = true ∧ ∀ d ∈ p, isPgWordChar d = true := by
  obtain ⟨hhead, hall⟩ := Bool.and_eq_true_iff.mp h
  cases p with
  | nil => cases hhead
  | cons c s => exact ⟨c, s, rfl, hhead, List.all_eq_true.mp hall⟩

/-! ### Lower case -/

/-- An ASCII capital and its small letter are both letters; other characters stay as they are. -/
lemma toLower_cases (c : Char) :
    c.toLower = c ∨
      c.isAlpha = true ∧ c.toLower.isAlpha = true ∧ c.toLower.toLower = c.toLower := by
  by_cases hc : c.toNat < 128
  · have hascii : ∀ n < 128, (Char.ofNat n).toLower = Char.ofNat n ∨
        (Char.ofNat n).isAlpha = true ∧ (Char.ofNat n).toLower.isAlpha = true ∧
          (Char.ofNat n).toLower.toLower = (Char.ofNat n).toLower := by
      decide
    have h := hascii c.toNat hc
    rwa [Char.ofNat_toNat] at h
  · left
    have hlarge : ¬ c.val ≤ 90 := by
      rw [UInt32.le_iff_toNat_le]
      exact fun h => hc (h.trans_lt (by decide))
    exact dif_neg fun h => hlarge h.2

lemma isPgIdentStart_toLower {c : Char} (h : isPgIdentStart c = true) :
    isPgIdentStart c.toLower = true := by
  rcases toLower_cases c with heq | ⟨-, hlower, -⟩
  · rwa [heq]
  · simp [isPgIdentStart, hlower]

lemma isPgWordChar_toLower {c : Char} (h : isPgWordChar c = true) :
    isPgWordChar c.toLower = true := by
  rcases toLower_cases c with heq | ⟨-, hlower, -⟩
  · rwa [heq]
  · simp [isPgWordChar, Char.isAlphanum, hlower]

lemma toLower_toLower (c : Char) : c.toLower.toLower = c.toLower := by
  rcases toLower_cases c with heq | ⟨-, -, heq⟩
  · rw [heq, heq]
  · exact heq

/-- The lower case of a word is a name that needs no quotes. -/
lemma isPlainName_toAsciiLowercase {p : Str} (h : isBareIdent p = true) :
    IsPlainName (toAsciiLowercase p) := by
  obtain ⟨c, s, rfl, hstart, hall⟩ := exists_of_isBareIdent h
  constructor
  · refine Bool.and_eq_true_iff.mpr ⟨isPgIdentStart_toLower hstart, ?_⟩
    rw [List.all_eq_true]
    intro d hd
    obtain ⟨e, he, rfl⟩ := List.mem_map.mp hd
    exact isPgWordChar_toLower (hall e he)
  · rw [toAsciiLowercase, toAsciiLowercase, List.map_map]
    apply List.map_congr_left
    intro d _
    exact toLower_toLower d

/-! ### Reading words and quoted identifiers -/

lemma lexFresh_word {c : Char} (h : isPgWordChar c = true) : lexFresh c = .word := by
  have hliteral : c ≠ '\'' := ne_of_isPgWordChar h (by decide)
  have hident : c ≠ '"' := ne_of_isPgWordChar h (by decide)
  rw [lexFresh, if_neg hliteral, if_neg hident, if_pos h]

/-- Word characters continue a word. -/
lemma whole_word {s : Str} (h : ∀ c ∈ s, isPgWordChar c = true) :
    pgLexer.Whole .word s ∧ pgLexer.run .word s = .word := by
  induction s with
  | nil => exact ⟨trivial, rfl⟩
  | cons c s ih =>
    have hc := h c List.mem_cons_self
    obtain ⟨hwhole, hrun⟩ := ih fun d hd => h d (List.mem_cons_of_mem _ hd)
    have hnext : pgLexer.next .word c = .word := lexFresh_word hc
    refine ⟨⟨?_, ?_⟩, ?_⟩
    · show (!isPgWordChar c) = false
      rw [hc]
      rfl
    · rwa [hnext]
    · show pgLexer.run (pgLexer.next .word c) s = .word
      rwa [hnext]

/-- A word is one piece. -/
lemma pieces_bareIdent {p : Str} (h : isBareIdent p = true) :
    pgLexer.pieces p = [p] ∧ lexState p = .word := by
  obtain ⟨c, s, rfl, hstart, hall⟩ := exists_of_isBareIdent h
  have hfresh : pgLexer.next .start c = .word := lexFresh_word (isPgWordChar_of_identStart hstart)
  obtain ⟨hwhole, hrun⟩ := whole_word fun d hd => hall d (List.mem_cons_of_mem _ hd)
  constructor
  · apply Segmenter.pieces_of_whole
    show pgLexer.Whole (pgLexer.next .start c) s
    rwa [hfresh]
  · show pgLexer.run (pgLexer.next .start c) s = .word
    rwa [hfresh]

/-- Doubled quotation marks continue a quoted text. -/
lemma whole_doubled (q : Quotes) (s : Str) :
    pgLexer.Whole (.quoted q) (doubled q.mark s ++ [q.mark]) ∧
      pgLexer.run (.quoted q) (doubled q.mark s ++ [q.mark]) = .closed q := by
  have hclose : pgLexer.next (.quoted q) q.mark = .closed q := if_pos rfl
  have hopen : pgLexer.next (.closed q) q.mark = .quoted q := if_pos rfl
  have hstarts : pgLexer.starts (.closed q) q.mark = false := bne_self_eq_false q.mark
  induction s with
  | nil => exact ⟨⟨rfl, trivial⟩, hclose⟩
  | cons c s ih =>
    by_cases hc : c = q.mark
    · rw [hc, doubled_cons_self, List.cons_append, List.cons_append]
      refine ⟨⟨rfl, ?_⟩, ?_⟩
      · rw [hclose]
        refine ⟨hstarts, ?_⟩
        rw [hopen]
        exact ih.1
      · show pgLexer.run (pgLexer.next (pgLexer.next (.quoted q) q.mark) q.mark) _ = .closed q
        rw [hclose, hopen]
        exact ih.2
    · have hnext : pgLexer.next (.quoted q) c = .quoted q := if_neg hc
      rw [doubled_cons_of_ne hc, List.cons_append]
      refine ⟨⟨rfl, ?_⟩, ?_⟩
      · rw [hnext]
        exact ih.1
      · show pgLexer.run (pgLexer.next (.quoted q) c) _ = .closed q
        rw [hnext]
        exact ih.2

/-- A quoted text is one piece. -/
lemma pieces_quotedBy (q : Quotes) (s : Str) :
    pgLexer.pieces (quotedBy q.mark s) = [quotedBy q.mark s] ∧
      lexState (quotedBy q.mark s) = .closed q := by
  have hfresh : pgLexer.next .start q.mark = .quoted q := by
    cases q <;> rfl
  constructor
  · apply Segmenter.pieces_of_whole
    show pgLexer.Whole (pgLexer.next .start q.mark) _
    rw [hfresh]
    exact (whole_doubled q s).1
  · show pgLexer.run (pgLexer.next .start q.mark) _ = .closed q
    rw [hfresh]
    exact (whole_doubled q s).2

lemma pieces_quotedIdent (s : Str) :
    pgLexer.pieces (quotedIdent s) = [quotedIdent s] ∧ lexState (quotedIdent s) = .closed .ident :=
  pieces_quotedBy .ident s

lemma length_quotedIdent (s : Str) : s.length + 2 ≤ (quotedIdent s).length := by
  have hdouble : s.length ≤ (doubleQuotes '"' s).length := length_le_doubled '"' s
  simp only [quotedIdent, List.length_append, String.reduceToList,
    List.length_cons, List.length_nil]
  omega

/-! ### What the blanking does to tokens -/

/-- The quotation mark that is open. -/
def LexState.openQuote : LexState → Option Char
  | .quoted q => some q.mark
  | _ => none

/-- One character in the blanking loop: it is copied, unless it is inside a literal. -/
def blankChar (st : LexState) (c : Char) : Char :=
  if st = .quoted .literal ∧ c ≠ '\'' then ' ' else c

lemma openQuote_lexFresh (c : Char) :
    (lexFresh c).openQuote = if c = '\'' ∨ c = '"' then some c else none := by
  rw [lexFresh]
  by_cases hliteral : c = '\''
  · rw [if_pos hliteral, if_pos (.inl hliteral), hliteral]
    rfl
  · by_cases hident : c = '"'
    · rw [if_neg hliteral, if_pos hident, if_pos (.inr hident), hident]
      rfl
    · rw [if_neg hliteral, if_neg hident, if_neg (not_or.mpr ⟨hliteral, hident⟩)]
      split_ifs <;> rfl

/-- Outside quotes a character is read as the first of a token would be. -/
lemma openQuote_lexNext {st : LexState} (h : st.openQuote = none) (c : Char) :
    (lexNext st c).openQuote = if c = '\'' ∨ c = '"' then some c else none := by
  cases st with
  | start => exact openQuote_lexFresh c
  | word => exact openQuote_lexFresh c
  | quoted q => cases h
  | closed q =>
    rw [lexNext]
    split_ifs with hc hquote hquote
    · rw [hc]
      rfl
    · cases q <;> simp [Quotes.mark] at hc <;> simp [hc] at hquote
    · rw [openQuote_lexFresh, if_pos hquote]
    · rw [openQuote_lexFresh, if_neg hquote]

lemma blankLiterals_cons (st : LexState) (c : Char) (s : Str) :
    blankLiterals '"' false st.openQuote (c :: s) =
      blankChar st c :: blankLiterals '"' false (lexNext st c).openQuote s := by
  cases hst : st.openQuote with
  | none =>
    have hchar : blankChar st c = c := by
      apply if_neg
      rintro ⟨rfl, -⟩
      cases hst
    rw [blankLiterals_none, hchar, openQuote_lexNext hst]
  | some q =>
    cases st with
    | start => cases hst
    | word => cases hst
    | closed q => cases hst
    | quoted q =>
      obtain rfl := Option.some_inj.mp hst
      cases q with
      | literal =>
        by_cases hc : c = '\''
        · rw [hc]
          exact blankLiterals_apostrophe s
        · have hnext : lexNext (.quoted .literal) c = .quoted .literal := if_neg hc
          have hchar : blankChar (.quoted .literal) c = ' ' := if_pos ⟨rfl, hc⟩
          rw [hnext, hchar]
          exact blankLiterals_literal hc (by simp) s
      | ident =>
        have hchar : blankChar (.quoted .ident) c = c := if_neg (by simp)
        rw [hchar, lexNext, blankLiterals_quoted (by decide)]
        split_ifs <;> rfl

lemma length_blankLiterals (st : LexState) (s : Str) :
    (blankLiterals '"' false st.openQuote s).length = s.length := by
  induction s generalizing st with
  | nil => cases st.openQuote <;> rfl
  | cons c s ih => rw [blankLiterals_cons, List.length_cons, ih, List.length_cons]

lemma blankLiterals_append (st : LexState) (s t : Str) :
    blankLiterals '"' false st.openQuote (s ++ t) =
      blankLiterals '"' false st.openQuote s ++
        blankLiterals '"' false (pgLexer.run st s).openQuote t := by
  induction s generalizing st with
  | nil =>
    have hnil : blankLiterals '"' false st.openQuote [] = [] := by
      cases st.openQuote <;> rfl
    rw [hnil]
    rfl
  | cons c s ih =>
    rw [List.cons_append, blankLiterals_cons, ih, blankLiterals_cons]
    rfl

/-- No character of `s` is inside a literal when it is read from `st`. -/
def NoLiteral : LexState → Str → Prop
  | _, [] => True
  | st, c :: s => st ≠ .quoted .literal ∧ NoLiteral (lexNext st c) s

lemma noLiteral_append {st : LexState} {s t : Str} :
    NoLiteral st (s ++ t) ↔ NoLiteral st s ∧ NoLiteral (pgLexer.run st s) t := by
  induction s generalizing st with
  | nil => simp [NoLiteral, Segmenter.run]
  | cons c s ih =>
    rw [List.cons_append, NoLiteral, NoLiteral, ih, and_assoc]
    rfl

/-- A blanked text that shows no literal is the text itself. -/
lemma eq_of_blankLiterals_eq {st : LexState} {s r : Str} (hr : NoLiteral st r)
    (h : blankLiterals '"' false st.openQuote s = r) : s = r := by
  induction s generalizing st r with
  | nil =>
    rw [← h]
    cases st.openQuote <;> rfl
  | cons c s ih =>
    rw [blankLiterals_cons] at h
    obtain ⟨d, r, rfl⟩ : ∃ d r', r = d :: r' := ⟨_, _, h.symm⟩
    have hchar : blankChar st c = c := if_neg fun hc => hr.1 hc.1
    rw [hchar] at h
    obtain ⟨rfl, hrest⟩ := List.cons.inj h
    rw [ih hr.2 hrest]

/-! ### Texts that are one token -/

/-- Read on its own the text is one piece without a literal, and leaves the lexer in `st`. -/
structure IsToken (x : Str) (st : LexState) : Prop where
  pieces_eq : pgLexer.pieces x = [x]
  state_eq : lexState x = st
  noLiteral : NoLiteral .start x

lemma noLiteral_word {s : Str} (h : ∀ c ∈ s, isPgWordChar c = true) : NoLiteral .word s := by
  induction s with
  | nil => trivial
  | cons c s ih =>
    have hnext : lexNext .word c = .word := lexFresh_word (h c List.mem_cons_self)
    refine ⟨by simp, ?_⟩
    rw [hnext]
    exact ih fun d hd => h d (List.mem_cons_of_mem _ hd)

lemma noLiteral_doubleQuotes (s : Str) :
    NoLiteral (.quoted .ident) (doubleQuotes '"' s ++ ['"']) := by
  induction s with
  | nil => exact ⟨by simp, trivial⟩
  | cons c s ih =>
    by_cases hc : c = '"'
    · rw [hc]
      exact ⟨by simp, by simp [lexNext, Quotes.mark], ih⟩
    · have hnext : lexNext (.quoted .ident) c = .quoted .ident := if_neg hc
      rw [doubleQuotes_eq, doubled_cons_of_ne hc]
      refine ⟨by simp, ?_⟩
      rw [hnext]
      exact ih

lemma isToken_bareIdent {p : Str} (h : isBareIdent p = true) : IsToken p .word := by
  obtain ⟨hpieces, hstate⟩ := pieces_bareIdent h
  refine ⟨hpieces, hstate, ?_⟩
  obtain ⟨c, s, rfl, hstart, hall⟩ := exists_of_isBareIdent h
  have hfresh : lexNext .start c = .word := lexFresh_word (isPgWordChar_of_identStart hstart)
  refine ⟨by simp, ?_⟩
  rw [hfresh]
  exact noLiteral_word fun d hd => hall d (List.mem_cons_of_mem _ hd)

lemma isToken_quotedIdent (s : Str) : IsToken (quotedIdent s) (.closed .ident) :=
  ⟨(pieces_quotedIdent s).1, (pieces_quotedIdent s).2, by simp, noLiteral_doubleQuotes s⟩

/-! ### The state behind a text -/

lemma lexState_concat (s : Str) (c : Char) : lexState (s ++ [c]) = lexNext (lexState s) c :=
  Segmenter.run_append _ _ _

lemma isPgWordChar_of_lexState {s : Str} (h : lexState s = .word) :
    ∃ c, s.getLast? = some c ∧ isPgWordChar c = true := by
  have hfresh : ∀ c, lexFresh c = .word → isPgWordChar c = true := by
    intro c hc
    rw [lexFresh] at hc
    split_ifs at hc with _ _ hword
    exact hword
  induction s using List.reverseRecOn with
  | nil => cases h
  | append_singleton s c _ =>
    refine ⟨c, by simp, ?_⟩
    rw [lexState_concat] at h
    cases hst : lexState s <;> rw [hst, lexNext] at h
    · exact hfresh c h
    · exact hfresh c h
    · split_ifs at h
    · split_ifs at h
      exact hfresh c h

lemma getLast?_of_lexState_closed {s : Str} {q : Quotes} (h : lexState s = .closed q) :
    s.getLast? = some q.mark := by
  have hfresh : ∀ c, lexFresh c ≠ .closed q := by
    intro c hc
    rw [lexFresh] at hc
    split_ifs at hc
  induction s using List.reverseRecOn with
  | nil => cases h
  | append_singleton s c _ =>
    rw [lexState_concat] at h
    cases hst : lexState s <;> rw [hst, lexNext] at h
    · exact absurd h (hfresh c)
    · exact absurd h (hfresh c)
    · split_ifs at h with hc
      cases h
      simp [hc]
    · split_ifs at h
      exact absurd h (hfresh c)

/-- Behind a word character the lexer is in a word or in quotes. -/
lemma lexState_of_isPgWordChar {s : Str} {c : Char} (hlast : s.getLast? = some c)
    (hc : isPgWordChar c = true) : lexState s = .word ∨ (lexState s).isQuoted = true := by
  obtain ⟨s, rfl⟩ := List.getLast?_eq_some_iff.mp hlast
  have hmark : ∀ q : Quotes, c ≠ q.mark := by
    intro q
    cases q
    · exact ne_of_isPgWordChar hc (by decide)
    · exact ne_of_isPgWordChar hc (by decide)
  rw [lexState_concat]
  cases lexState s with
  | start => exact .inl (lexFresh_word hc)
  | word => exact .inl (lexFresh_word hc)
  | quoted q => exact .inr (by rw [lexNext, if_neg (hmark q)]; rfl)
  | closed q => exact .inl (by rw [lexNext, if_neg (hmark q), lexFresh_word hc])

/-- Outside quotes the last character was copied. -/
lemma getLast?_blankLiterals {s : Str} (h : (lexState s).openQuote = none) :
    (blankLiterals '"' false none s).getLast? = s.getLast? := by
  induction s using List.reverseRecOn with
  | nil => rfl
  | append_singleton s c _ =>
    have hblank : blankLiterals '"' false none (s ++ [c]) =
        blankLiterals '"' false none s ++ [blankChar (lexState s) c] := by
      have happend := blankLiterals_append .start s [c]
      rw [blankLiterals_cons] at happend
      refine happend.trans ?_
      cases (lexNext (pgLexer.run .start s) c).openQuote <;> rfl
    have hchar : blankChar (lexState s) c = c := by
      apply if_neg
      rintro ⟨hst, hc⟩
      have hnext : lexNext (.quoted .literal) c = .quoted .literal := if_neg hc
      rw [lexState_concat, hst, hnext] at h
      cases h
    rw [hblank, hchar, List.getLast?_concat, List.getLast?_concat]

end TdExport.Sql
