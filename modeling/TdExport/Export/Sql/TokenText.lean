import TdExport.Export.Sql.Tokens

/-!
# Reading tokens

What the tokens of a PostgreSQL text stand for, and that a text written token by token is read back
as these tokens.
-/

namespace TdExport.Sql

open Core

/-- A token with its quotation marks taken away. -/
inductive PgToken where
  | word (w : Str)
  | symbol (c : Char)
  | ident (name : Str)
  | literal (value : Str)
  deriving DecidableEq, Repr

namespace PgToken

def text : PgToken → Str
  | .word w => w
  | .symbol c => [c]
  | .ident name => quotedBy '"' name
  | .literal value => quotedBy '\'' value

/-- The name that a quoted identifier stands for. -/
def ident? : PgToken → Option Str
  | .ident name => some name
  | _ => none

/-- The value of a literal. -/
def literal? : PgToken → Option Str
  | .literal value => some value
  | _ => none

/-- The token is written as one token of its kind. -/
def Ok : PgToken → Prop
  | .word w => isBareIdent w = true
  | .symbol c => isPgWordChar c = false ∧ c ≠ '\'' ∧ c ≠ '"'
  | _ => True

/-- Two tokens that are not taken for one when nothing stands between them. -/
def Apart : PgToken → PgToken → Prop
  | .word _, .word _ => False
  | .ident _, .ident _ => False
  | .literal _, .literal _ => False
  | _, _ => True

instance : DecidablePred Ok
  | .word w => inferInstanceAs (Decidable (isBareIdent w = true))
  | .symbol c => inferInstanceAs (Decidable (isPgWordChar c = false ∧ c ≠ '\'' ∧ c ≠ '"'))
  | .ident _ => .isTrue trivial
  | .literal _ => .isTrue trivial

instance : DecidableRel Apart
  | .word _, .word _ => .isFalse id
  | .ident _, .ident _ => .isFalse id
  | .literal _, .literal _ => .isFalse id
  | .word _, .symbol _ => .isTrue trivial
  | .word _, .ident _ => .isTrue trivial
  | .word _, .literal _ => .isTrue trivial
  | .symbol _, _ => .isTrue trivial
  | .ident _, .word _ => .isTrue trivial
  | .ident _, .symbol _ => .isTrue trivial
  | .ident _, .literal _ => .isTrue trivial
  | .literal _, .word _ => .isTrue trivial
  | .literal _, .symbol _ => .isTrue trivial
  | .literal _, .ident _ => .isTrue trivial

end PgToken

/-- Read one token; there is none when its quotes are not closed. -/
def readToken : Str → Option PgToken
  | [] => none
  | c :: s =>
    if c = '\'' then (readQuoted '\'' s).map fun p => .literal p.1
    else if c = '"' then (readQuoted '"' s).map fun p => .ident p.1
    else if isPgWordChar c then some (.word (c :: s))
    else some (.symbol c)

/-- The tokens of a text; there are none when its quotes are not closed. -/
def pgTokens (ddl : Str) : Option (List PgToken) := (tokens ddl).mapM readToken

namespace PgToken

variable {t a b : PgToken} {ts : List PgToken}

/-! ### One token -/

lemma Ok.exists_word {w : Str} (h : (word w).Ok) : ∃ c s, w = c :: s ∧ isPgWordChar c = true := by
  obtain ⟨c, s, hw, hstart, -⟩ := exists_of_isBareIdent h
  exact ⟨c, s, hw, isPgWordChar_of_identStart hstart⟩

lemma Ok.readToken_text (h : t.Ok) : readToken t.text = some t := by
  cases t with
  | word w =>
    obtain ⟨c, s, rfl, hword⟩ := Ok.exists_word h
    have hliteral : c ≠ '\'' := ne_of_isPgWordChar hword (by decide)
    have hident : c ≠ '"' := ne_of_isPgWordChar hword (by decide)
    rw [text, readToken, if_neg hliteral, if_neg hident, if_pos hword]
  | symbol c =>
    obtain ⟨hword, hliteral, hident⟩ := h
    rw [text, readToken, if_neg hliteral, if_neg hident, if_neg (by simp [hword])]
  | ident name =>
    rw [text, quotedBy, readToken, if_neg (by decide), if_pos rfl, readQuoted_doubled (by simp)]
    rfl
  | literal value =>
    rw [text, quotedBy, readToken, if_pos rfl, readQuoted_doubled (by simp)]
    rfl

/-- The state behind the token. -/
def state : PgToken → LexState
  | .word _ => .word
  | .symbol _ => .start
  | .ident _ => .closed .ident
  | .literal _ => .closed .literal

lemma Ok.pieces_text (h : t.Ok) : pgLexer.pieces t.text = [t.text] ∧ lexState t.text = t.state := by
  cases t with
  | word w => exact pieces_bareIdent h
  | symbol c =>
    obtain ⟨hword, hliteral, hident⟩ := h
    refine ⟨rfl, ?_⟩
    show lexFresh c = .start
    rw [lexFresh, if_neg hliteral, if_neg hident, if_neg (by simp [hword])]
  | ident name => exact pieces_quotedBy .ident name
  | literal value => exact pieces_quotedBy .literal value

/-- The token is white space. -/
def isBlank : PgToken → Bool
  | .symbol c => isPgSpace c
  | _ => false

lemma isSpacePiece_quotedBy (q : Char) (s : Str) : isSpacePiece (quotedBy q s) = false := by
  obtain ⟨c, t, hinside⟩ := List.exists_cons_of_ne_nil (List.concat_ne_nil q (doubled q s))
  rw [quotedBy, hinside]
  rfl

lemma Ok.isSpacePiece_text (h : t.Ok) : isSpacePiece t.text = t.isBlank := by
  cases t with
  | word w =>
    obtain ⟨c, s, rfl, hword⟩ := Ok.exists_word h
    cases s with
    | nil =>
      show isPgSpace c = false
      rw [isPgSpace, Bool.eq_false_iff, ne_eq, List.contains_iff_mem]
      intro hspace
      have hmem : c ∈ "'\". \t\n\r\x0b\x0c".toList := List.mem_append_right ['\'', '"', '.'] hspace
      exact ne_of_isPgWordChar hword hmem rfl
    | cons d s => rfl
  | symbol c => rfl
  | ident name => exact isSpacePiece_quotedBy '"' name
  | literal value => exact isSpacePiece_quotedBy '\'' value

/-! ### Tokens behind each other -/

/-- The first character shows the kind of a token. -/
lemma Ok.exists_text (h : t.Ok) :
    ∃ c s, t.text = c :: s ∧ (isPgWordChar c = true → ∃ w, t = .word w) ∧
      (c = '"' → ∃ name, t = .ident name) ∧ (c = '\'' → ∃ value, t = .literal value) := by
  cases t with
  | word w =>
    obtain ⟨c, s, rfl, hword⟩ := Ok.exists_word h
    exact ⟨c, s, rfl, fun _ => ⟨_, rfl⟩, fun hc => absurd hc (ne_of_isPgWordChar hword (by decide)),
      fun hc => absurd hc (ne_of_isPgWordChar hword (by decide))⟩
  | symbol c =>
    obtain ⟨hword, hliteral, hident⟩ := h
    exact ⟨c, [], rfl, fun hc => absurd hc (by simp [hword]), fun hc => absurd hc hident,
      fun hc => absurd hc hliteral⟩
  | ident name =>
    exact ⟨'"', _, rfl, fun hc => absurd hc (by decide), fun _ => ⟨_, rfl⟩,
      fun hc => absurd hc (by decide)⟩
  | literal value =>
    exact ⟨'\'', _, rfl, fun hc => absurd hc (by decide), fun hc => absurd hc (by decide),
      fun _ => ⟨_, rfl⟩⟩

lemma Ok.cut_text (ha : a.Ok) (hb : b.Ok) (h : Apart a b) : pgLexer.Cut a.text b.text := by
  obtain ⟨c, s, htext, hword, hident, hliteral⟩ := hb.exists_text
  intro d hd
  rw [htext, List.head?_cons, Option.some_inj] at hd
  subst hd
  rw [show pgLexer.run pgLexer.start a.text = a.state from ha.pieces_text.2]
  show lexStarts a.state c = true
  by_contra hstarts
  cases a with
  | word _ =>
    have hc : isPgWordChar c = true := by simpa [state, lexStarts] using hstarts
    obtain ⟨w, rfl⟩ := hword hc
    exact h
  | symbol _ => exact hstarts rfl
  | ident _ =>
    have hc : c = '"' := by simpa [state, lexStarts, Quotes.mark] using hstarts
    obtain ⟨name, rfl⟩ := hident hc
    exact h
  | literal _ =>
    have hc : c = '\'' := by simpa [state, lexStarts, Quotes.mark] using hstarts
    obtain ⟨value, rfl⟩ := hliteral hc
    exact h

/-! ### Texts written token by token -/

/-- Tokens that are written one behind the other as they stand. -/
structure Written (ts : List PgToken) : Prop where
  ok : ∀ t ∈ ts, t.Ok
  apart : ts.IsChain Apart

lemma Written.isChain_cut (h : Written ts) : (ts.map text).IsChain pgLexer.Cut := by
  rw [List.isChain_map]
  exact h.apart.imp_of_mem_imp fun a b ha hb hab => (h.ok a ha).cut_text (h.ok b hb) hab

lemma Written.pieces_text (h : Written ts) : ∀ p ∈ ts.map text, pgLexer.pieces p = [p] := by
  intro p hp
  obtain ⟨t, ht, rfl⟩ := List.mem_map.mp hp
  exact (h.ok t ht).pieces_text.1

lemma Written.pieces_flatMap (h : Written ts) :
    pgLexer.pieces (ts.flatMap text) = ts.map text := by
  rw [List.flatMap_def]
  exact Segmenter.pieces_flatten h.pieces_text h.isChain_cut

/-- All quotes are closed in the end. -/
lemma Written.isQuoted_flatMap (h : Written ts) :
    (lexState (ts.flatMap text)).isQuoted = false := by
  obtain rfl | ⟨ts, t, rfl⟩ := List.eq_nil_or_concat' ts
  · rfl
  · have hpieces := h.pieces_text
    have hcut := h.isChain_cut
    rw [List.map_append, List.map_singleton] at hpieces hcut
    have hstate : lexState ((ts ++ [t]).flatMap text) = t.state := by
      rw [List.flatMap_def, List.map_append, List.map_singleton, lexState]
      refine (Segmenter.run_flatten ?_ hcut).trans (h.ok t (by simp)).pieces_text.2
      exact fun p hp => Segmenter.ne_nil_of_pieces (hpieces p hp)
    rw [hstate]
    cases t <;> rfl

lemma mapM_readToken (h : ∀ t ∈ ts, t.Ok) : (ts.map text).mapM readToken = some ts := by
  induction ts with
  | nil => rfl
  | cons t ts ih =>
    obtain ⟨ht, hts⟩ := List.forall_mem_cons.mp h
    rw [List.map_cons, List.mapM_cons, ht.readToken_text, ih hts]
    rfl

/-- The tokens are read back. -/
theorem Written.pgTokens_flatMap (h : Written ts) :
    pgTokens (ts.flatMap text) = some (ts.filter fun t => !t.isBlank) := by
  have hfilter : (ts.map text).filter (fun p => !isSpacePiece p) =
      (ts.filter fun t => !t.isBlank).map text := by
    rw [List.filter_map]
    congr 1
    apply List.filter_congr
    intro t ht
    rw [Function.comp_apply, (h.ok t ht).isSpacePiece_text]
  rw [pgTokens, tokens, h.pieces_flatMap, hfilter]
  exact mapM_readToken fun t ht => h.ok t (List.mem_of_mem_filter ht)

/-! ### Putting texts together -/

lemma written_nil : Written [] := ⟨by simp, .nil⟩

lemma written_singleton (h : t.Ok) : Written [t] := ⟨by simpa using h, .singleton t⟩

lemma Written.append {ts' : List PgToken} (h : Written ts) (h' : Written ts')
    (happend : ∀ a ∈ ts.getLast?, ∀ b ∈ ts'.head?, Apart a b) : Written (ts ++ ts') where
  ok := List.forall_mem_append.mpr ⟨h.ok, h'.ok⟩
  apart := List.isChain_append.mpr ⟨h.apart, h'.apart, happend⟩

lemma apart_symbol (a : PgToken) (c : Char) : Apart a (.symbol c) ∧ Apart (.symbol c) a := by
  cases a <;> exact ⟨trivial, trivial⟩

/-- A symbol may stand between any two texts. -/
lemma Written.append_symbol {ts' : List PgToken} {c : Char} (hc : Ok (.symbol c)) (h : Written ts)
    (h' : Written ts') : Written (ts ++ .symbol c :: ts') := by
  have hcons : Written (.symbol c :: ts') :=
    (written_singleton hc).append h' (by simp [(apart_symbol _ c).2])
  exact h.append hcons (by simp [(apart_symbol _ c).1])

/-! ### What a text says -/

/-- All quotes of the text are closed, its quoted identifiers stand for `idents` and its literals
for `literals`. -/
structure Rereads (ddl : Str) (idents literals : List Str) : Prop where
  closed : (lexState ddl).isQuoted = false
  tokens : ∃ ts, pgTokens ddl = some ts ∧ ts.filterMap ident? = idents ∧
    ts.filterMap literal? = literals

/-- White space says nothing. -/
lemma filterMap_filter_isBlank {f : PgToken → Option Str} (hf : ∀ c, f (.symbol c) = none)
    (ts : List PgToken) : (ts.filter fun t => !t.isBlank).filterMap f = ts.filterMap f := by
  rw [List.filterMap_filter]
  apply List.filterMap_congr
  intro t _
  cases t with
  | symbol c => simp [hf]
  | word _ => rfl
  | ident _ => rfl
  | literal _ => rfl

lemma Written.rereads (h : Written ts) :
    Rereads (ts.flatMap text) (ts.filterMap ident?) (ts.filterMap literal?) where
  closed := h.isQuoted_flatMap
  tokens := ⟨_, h.pgTokens_flatMap, filterMap_filter_isBlank (fun _ => rfl) ts,
    filterMap_filter_isBlank (fun _ => rfl) ts⟩

/-! ### The end of a statement -/

/-- A semicolon outside quotes stands between `before` and `after`. -/
def EndsBetween (ddl before after : Str) : Prop :=
  ddl = before ++ ';' :: after ∧ (lexState before).isQuoted = false

/-- A semicolon outside quotes is a piece of its own. -/
lemma EndsBetween.pieces_eq {ddl before after : Str} (h : EndsBetween ddl before after) :
    pgLexer.pieces ddl = pgLexer.pieces before ++ [';'] :: pgLexer.pieces after := by
  obtain ⟨rfl, hquoted⟩ := h
  have hbefore : pgLexer.Cut before (';' :: after) := by
    intro c hc
    obtain rfl := Option.some_inj.mp hc
    show lexStarts (lexState before) ';' = true
    cases hstate : lexState before with
    | start => rfl
    | word => rfl
    | quoted q =>
      rw [hstate] at hquoted
      cases hquoted
    | closed q => cases q <;> rfl
  have hafter : pgLexer.Cut [';'] after := fun c _ => rfl
  have hsemicolon : pgLexer.pieces (';' :: after) = [';'] :: pgLexer.pieces after :=
    Segmenter.pieces_append hafter
  rw [Segmenter.pieces_append hbefore, hsemicolon]

lemma Ok.eq_semicolon (h : t.Ok) (htext : t.text = [';']) : t = .symbol ';' := by
  have hread := h.readToken_text
  rw [htext] at hread
  exact (Option.some_inj.mp hread).symm

variable {before after : Str}

/-- Without a token `;` no statement ends. -/
lemma Written.not_endsBetween (h : Written ts) (hnot : .symbol ';' ∉ ts) :
    ¬EndsBetween (ts.flatMap text) before after := by
  intro hends
  have hmem : [';'] ∈ ts.map text := by
    rw [← h.pieces_flatMap, hends.pieces_eq]
    simp
  obtain ⟨t, ht, htext⟩ := List.mem_map.mp hmem
  rw [(h.ok t ht).eq_semicolon htext] at ht
  exact hnot ht

/-- The only statement ends with the text. -/
lemma Written.endsBetween_iff (h : Written (ts ++ [symbol ';'])) (hnot : symbol ';' ∉ ts) :
    EndsBetween ((ts ++ [symbol ';']).flatMap text) before after ↔
      before = ts.flatMap text ∧ after = [] := by
  have hts : Written ts :=
    ⟨fun t ht => h.ok t (List.mem_append_left _ ht), (List.isChain_append.mp h.apart).1⟩
  have htext : (ts ++ [symbol ';']).flatMap text = ts.flatMap text ++ [';'] := by
    simp [text]
  constructor
  · intro hends
    obtain rfl | ⟨after', c, rfl⟩ := List.eq_nil_or_concat' after
    · have heq := hends.1
      rw [htext] at heq
      exact ⟨(List.append_cancel_right heq).symm, rfl⟩
    · -- otherwise the semicolon stands in the text before the last one
      have heq := hends.1
      rw [htext, ← List.cons_append, ← List.append_assoc] at heq
      obtain ⟨hbefore, -⟩ := List.append_inj' heq rfl
      exact absurd ⟨hbefore, hends.2⟩ (hts.not_endsBetween hnot)
  · rintro ⟨rfl, rfl⟩
    exact ⟨htext, hts.isQuoted_flatMap⟩

/-- The only semicolon outside quotes is the last character. -/
def EndsOnce (ddl : Str) : Prop :=
  ∃ body, ddl = body ++ [';'] ∧
    ∀ before after, EndsBetween ddl before after ↔ before = body ∧ after = []

lemma Written.endsOnce (h : Written (ts ++ [symbol ';'])) (hnot : symbol ';' ∉ ts) :
    EndsOnce ((ts ++ [symbol ';']).flatMap text) :=
  ⟨ts.flatMap text, by simp [text], fun _ _ => h.endsBetween_iff hnot⟩

/-! ### What is written -/

/-- The tokens are written as they stand, none of them ends a statement, their quoted identifiers
stand for `idents` and their literals for `literals`. -/
structure Says (ts : List PgToken) (idents literals : List Str) : Prop where
  written : Written ts
  noEnd : symbol ';' ∉ ts
  idents : ts.filterMap ident? = idents
  literals : ts.filterMap literal? = literals

section Says

variable {ts' : List PgToken} {c : Char} {idents idents' literals literals' : List Str}

/-- For lists without variable length. -/
lemma says_of_decide (hok : decide (∀ t ∈ ts, t.Ok) = true)
    (hapart : decide (ts.IsChain Apart) = true) (hend : decide (symbol ';' ∉ ts) = true) :
    Says ts (ts.filterMap ident?) (ts.filterMap literal?) :=
  ⟨⟨of_decide_eq_true hok, of_decide_eq_true hapart⟩, of_decide_eq_true hend, rfl, rfl⟩

lemma Says.append_symbol (hc : Ok (symbol c)) (hend : c ≠ ';') (h : Says ts idents literals)
    (h' : Says ts' idents' literals') :
    Says (ts ++ symbol c :: ts') (idents ++ idents') (literals ++ literals') where
  written := h.written.append_symbol hc h'.written
  noEnd := by simp [h.noEnd, h'.noEnd, hend.symm]
  idents := by
    rw [List.filterMap_append, List.filterMap_cons_none rfl, h.idents, h'.idents]
  literals := by
    rw [List.filterMap_append, List.filterMap_cons_none rfl, h.literals, h'.literals]

/-- Texts may be joined by commas. -/
lemma says_intercalate {β : Type*} {f : β → List PgToken} {p q : β → List Str} {l : List β}
    (h : ∀ x ∈ l, Says (f x) (p x) (q x)) :
    Says ([symbol ',', symbol ' '].intercalate (l.map f)) (l.flatMap p) (l.flatMap q) := by
  induction l with
  | nil => exact says_of_decide rfl rfl rfl
  | cons x l ih =>
    obtain ⟨hx, hl⟩ := List.forall_mem_cons.mp h
    cases l with
    | nil => simpa using hx
    | cons y l =>
      rw [List.map_cons, List.map_cons, List.intercalate_cons_cons, List.append_assoc]
      have hnil : Says [] [] [] := says_of_decide rfl rfl rfl
      have hrest := hnil.append_symbol (c := ' ') (by decide) (by decide) (ih hl)
      exact hx.append_symbol (by decide) (by decide) hrest

lemma Says.rereads (h : Says ts idents literals) : Rereads (ts.flatMap text) idents literals := by
  rw [← h.idents, ← h.literals]
  exact h.written.rereads

/-- A semicolon ends the statement. -/
lemma Says.rereads_semicolon (h : Says ts idents literals) :
    Rereads ((ts ++ [symbol ';']).flatMap text) idents literals ∧
      EndsOnce ((ts ++ [symbol ';']).flatMap text) := by
  have hwritten : Written (ts ++ [symbol ';']) := h.written.append_symbol (by decide) written_nil
  have hident : (ts ++ [symbol ';']).filterMap ident? = idents := by
    rw [List.filterMap_append, h.idents]
    exact List.append_nil idents
  have hliteral : (ts ++ [symbol ';']).filterMap literal? = literals := by
    rw [List.filterMap_append, h.literals]
    exact List.append_nil literals
  have hreads := hwritten.rereads
  rw [hident, hliteral] at hreads
  exact ⟨hreads, hwritten.endsOnce h.noEnd⟩

end Says

end PgToken

end TdExport.Sql
