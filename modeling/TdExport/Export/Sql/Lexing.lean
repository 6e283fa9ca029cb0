import TdExport.Export.Sql.Basic

/-!
# Blanking the literals of a definition

How `without_string_literals` goes through a definition whose literals and quoted identifiers are
complete.
-/

namespace TdExport.Sql

open Core

/-- The quotation mark of identifiers. -/
def identQuote : DbType → Char
  | .mySql => '`'
  | .postgres => '"'

/-- A literal may have backslash escapes. -/
def hasBackslash : DbType → Bool
  | .mySql => true
  | .postgres => false

variable {db : DbType}

lemma withoutStringLiterals_eq (ddl : Str) (db : DbType) :
    withoutStringLiterals ddl db = blankLiterals (identQuote db) (hasBackslash db) none ddl := by
  cases db <;> rfl

lemma identQuote_ne (db : DbType) : identQuote db ≠ '\'' := by
  cases db <;> decide

/-! ### Complete texts -/

/-- The inside of a literal: characters, doubled apostrophes and backslash pairs. -/
inductive LiteralBody (db : DbType) : Str → Prop
  | nil : LiteralBody db []
  | plain {c b} : c ≠ '\'' → ¬ (c = '\\' ∧ hasBackslash db = true) → LiteralBody db b →
      LiteralBody db (c :: b)
  | doubled {b} : LiteralBody db b → LiteralBody db ('\'' :: '\'' :: b)
  | pair {c b} : hasBackslash db = true → LiteralBody db b → LiteralBody db ('\\' :: c :: b)

/-- The inside of a quoted identifier: characters and doubled quotation marks. -/
inductive IdentBody (q : Char) : Str → Prop
  | nil : IdentBody q []
  | plain {c b} : c ≠ q → IdentBody q b → IdentBody q (c :: b)
  | doubled {b} : IdentBody q b → IdentBody q (q :: q :: b)

/-- Text that ends outside literals and quoted identifiers. -/
inductive Lexed (db : DbType) : Str → Prop
  | nil : Lexed db []
  | plain {c s} : c ≠ '\'' → c ≠ identQuote db → Lexed db s → Lexed db (c :: s)
  | literal {b s} : LiteralBody db b → Lexed db s → Lexed db ('\'' :: (b ++ '\'' :: s))
  | ident {b s} : IdentBody (identQuote db) b → Lexed db s →
      Lexed db (identQuote db :: (b ++ identQuote db :: s))

/-- A text without the quotation mark is the inside of an identifier. -/
lemma IdentBody.of_forall {q : Char} {b : Str} (h : ∀ c ∈ b, c ≠ q) : IdentBody q b := by
  induction b with
  | nil => exact .nil
  | cons c b ih =>
    exact .plain (h c List.mem_cons_self) (ih fun d hd => h d (List.mem_cons_of_mem _ hd))

lemma LiteralBody.of_forall {b : Str} (h : ∀ c ∈ b, c ≠ '\'' ∧ c ≠ '\\') : LiteralBody db b := by
  induction b with
  | nil => exact .nil
  | cons c b ih =>
    obtain ⟨hliteral, hbackslash⟩ := h c List.mem_cons_self
    exact .plain hliteral (fun hc => hbackslash hc.1)
      (ih fun d hd => h d (List.mem_cons_of_mem _ hd))

lemma Lexed.plain_append {t s : Str} (ht : ∀ c ∈ t, c ≠ '\'' ∧ c ≠ identQuote db)
    (hs : Lexed db s) : Lexed db (t ++ s) := by
  induction t with
  | nil => exact hs
  | cons c t ih =>
    obtain ⟨hliteral, hident⟩ := ht c List.mem_cons_self
    exact .plain hliteral hident (ih fun d hd => ht d (List.mem_cons_of_mem _ hd))

/-! ### The loop, step by step -/

section Steps

variable {iq : Char} {bs : Bool}

lemma blankLiterals_none (c : Char) (s : Str) :
    blankLiterals iq bs none (c :: s) =
      c :: blankLiterals iq bs (if c = '\'' ∨ c = iq then some c else none) s := rfl

lemma blankLiterals_quoted {q : Char} (hq : q ≠ '\'') (c : Char) (s : Str) :
    blankLiterals iq bs (some q) (c :: s) =
      c :: blankLiterals iq bs (if c = q then none else some q) s := by
  cases s with
  | nil => exact if_neg hq
  | cons d s => exact if_neg hq

lemma blankLiterals_apostrophe (s : Str) :
    blankLiterals iq bs (some '\'') ('\'' :: s) = '\'' :: blankLiterals iq bs none s := by
  cases s <;> cases bs <;> rfl

lemma blankLiterals_pair (c : Char) (s : Str) :
    blankLiterals iq true (some '\'') ('\\' :: c :: s) =
      ' ' :: ' ' :: blankLiterals iq true (some '\'') s := rfl

lemma blankLiterals_literal {c : Char} (hliteral : c ≠ '\'')
    (hbackslash : ¬ (c = '\\' ∧ bs = true)) (s : Str) :
    blankLiterals iq bs (some '\'') (c :: s) = ' ' :: blankLiterals iq bs (some '\'') s := by
  cases s with
  | nil => exact (if_neg hbackslash).trans (if_neg hliteral)
  | cons d s => exact (if_neg hbackslash).trans (if_neg hliteral)

end Steps

lemma blankLiterals_plain {c : Char} (hliteral : c ≠ '\'') (hident : c ≠ identQuote db) (s : Str) :
    blankLiterals (identQuote db) (hasBackslash db) none (c :: s) =
      c :: blankLiterals (identQuote db) (hasBackslash db) none s := by
  rw [blankLiterals_none, if_neg (not_or.mpr ⟨hliteral, hident⟩)]

/-- A literal is blanked up to its closing apostrophe. -/
lemma exists_blankLiterals_body {b : Str} (hb : LiteralBody db b) :
    ∃ b', ∀ s, blankLiterals (identQuote db) (hasBackslash db) (some '\'') (b ++ '\'' :: s) =
      b' ++ '\'' :: blankLiterals (identQuote db) (hasBackslash db) none s := by
  induction hb with
  | nil => exact ⟨[], blankLiterals_apostrophe⟩
  | plain hliteral hbackslash _ ih =>
    obtain ⟨b', ih⟩ := ih
    refine ⟨' ' :: b', fun s => ?_⟩
    rw [List.cons_append, blankLiterals_literal hliteral hbackslash, ih]
    rfl
  | doubled _ ih =>
    obtain ⟨b', ih⟩ := ih
    refine ⟨'\'' :: '\'' :: b', fun s => ?_⟩
    rw [List.cons_append, List.cons_append, blankLiterals_apostrophe, blankLiterals_none,
      if_pos (.inl rfl), ih]
    rfl
  | pair hbackslash _ ih =>
    obtain ⟨b', ih⟩ := ih
    refine ⟨' ' :: ' ' :: b', fun s => ?_⟩
    rw [hbackslash] at ih ⊢
    rw [List.cons_append, List.cons_append, blankLiterals_pair, ih]
    rfl

/-- A quoted identifier is copied. -/
lemma blankLiterals_identBody {b : Str} (hb : IdentBody (identQuote db) b) (s : Str) :
    blankLiterals (identQuote db) (hasBackslash db) (some (identQuote db))
        (b ++ identQuote db :: s) =
      b ++ identQuote db :: blankLiterals (identQuote db) (hasBackslash db) none s := by
  induction hb with
  | nil =>
    rw [List.nil_append, blankLiterals_quoted (identQuote_ne db), if_pos rfl]
    rfl
  | plain hc _ ih =>
    rw [List.cons_append, blankLiterals_quoted (identQuote_ne db), if_neg hc, ih]
    rfl
  | doubled _ ih =>
    rw [List.cons_append, List.cons_append, blankLiterals_quoted (identQuote_ne db), if_pos rfl,
      blankLiterals_none, if_pos (.inr rfl), ih]
    rfl

/-! ### Texts that are copied -/

/-- Text that is copied as it stands, whatever follows. -/
def Copied (db : DbType) (r : Str) : Prop :=
  ∀ s, blankLiterals (identQuote db) (hasBackslash db) none (r ++ s) =
    r ++ blankLiterals (identQuote db) (hasBackslash db) none s

lemma Copied.append {r r' : Str} (h : Copied db r) (h' : Copied db r') : Copied db (r ++ r') := by
  intro s
  rw [List.append_assoc, h, h', List.append_assoc]

lemma copied_plain {r : Str} (h : ∀ c ∈ r, c ≠ '\'' ∧ c ≠ identQuote db) : Copied db r := by
  intro s
  induction r with
  | nil => rfl
  | cons c r ih =>
    obtain ⟨hliteral, hident⟩ := h c List.mem_cons_self
    rw [List.cons_append, blankLiterals_plain hliteral hident,
      ih fun d hd => h d (List.mem_cons_of_mem _ hd)]
    rfl

lemma copied_ident {b : Str} (hb : IdentBody (identQuote db) b) :
    Copied db (identQuote db :: (b ++ [identQuote db])) := by
  intro s
  rw [List.cons_append, List.append_assoc, List.singleton_append, blankLiterals_none,
    if_pos (.inr rfl), blankLiterals_identBody hb]
  simp

/-! ### The end of a text -/

/-- `s` and `s'` end alike: with the same text without quotation marks, behind the same quotation
mark if there is one. -/
def SameEnd (q : Char) (s s' : Str) : Prop :=
  ∃ p p' t, s = p ++ t ∧ s' = p' ++ t ∧ (∀ c ∈ t, c ≠ '\'' ∧ c ≠ q) ∧
    p.getLast? = p'.getLast? ∧ ∀ c, p.getLast? = some c → c = '\'' ∨ c = q

variable {q : Char} {s s' : Str}

lemma SameEnd.nil : SameEnd q [] [] :=
  ⟨[], [], [], rfl, rfl, by simp, rfl, by simp⟩

lemma SameEnd.cons {c : Char} (hliteral : c ≠ '\'') (hident : c ≠ q) (h : SameEnd q s s') :
    SameEnd q (c :: s) (c :: s') := by
  obtain ⟨p, p', t, rfl, rfl, ht, hlast, hquote⟩ := h
  cases p with
  | nil =>
    obtain rfl : p' = [] := List.getLast?_eq_none_iff.mp hlast.symm
    exact ⟨[], [], c :: t, rfl, rfl, List.forall_mem_cons.mpr ⟨⟨hliteral, hident⟩, ht⟩, rfl,
      by simp⟩
  | cons d p =>
    have hne : p' ≠ [] := by
      rintro rfl
      simp at hlast
    obtain ⟨d', p', rfl⟩ := List.exists_cons_of_ne_nil hne
    exact ⟨c :: d :: p, c :: d' :: p', t, rfl, rfl, ht, by simpa using hlast, by simpa using hquote⟩

/-- Behind a quotation mark the beginnings do not matter. -/
lemma SameEnd.append_quote {c : Char} (hc : c = '\'' ∨ c = q) (a a' : Str)
    (h : SameEnd q s s') : SameEnd q (a ++ c :: s) (a' ++ c :: s') := by
  obtain ⟨p, p', t, rfl, rfl, ht, hlast, hquote⟩ := h
  refine ⟨a ++ c :: p, a' ++ c :: p', t, by simp, by simp, ht, ?_, ?_⟩
  · simp [List.getLast?_append, List.getLast?_cons, hlast]
  · intro d hd
    simp only [List.getLast?_append, List.getLast?_cons, Option.some_or, Option.some_inj] at hd
    cases hp : p.getLast? with
    | none =>
      rw [hp] at hd
      rwa [← hd]
    | some e =>
      rw [hp] at hd
      rw [← hd]
      exact hquote e hp

lemma SameEnd.getLast?_eq (h : SameEnd q s s') : s.getLast? = s'.getLast? := by
  obtain ⟨p, p', t, rfl, rfl, -, hlast, -⟩ := h
  rw [List.getLast?_append, List.getLast?_append, hlast]

/-- A text without quotation marks ends both or neither. -/
lemma SameEnd.suffix {x : Str} (hx : ∀ c ∈ x, c ≠ '\'' ∧ c ≠ q) (h : SameEnd q s s')
    (hs' : x <:+ s') : x <:+ s := by
  obtain ⟨p, p', t, rfl, rfl, -, hlast, hquote⟩ := h
  by_cases hlen : x.length ≤ t.length
  · have hxt : x <:+ t := List.suffix_of_suffix_length_le hs' (List.suffix_append p' t) hlen
    exact hxt.trans (List.suffix_append p t)
  · obtain ⟨y, rfl⟩ : t <:+ x :=
      List.suffix_of_suffix_length_le (List.suffix_append p' t) hs' (by omega)
    have hy : y ≠ [] := by
      rintro rfl
      simp at hlen
    obtain ⟨z, hz⟩ := hs'
    have hp' : p' = z ++ y := by
      rw [← List.append_assoc] at hz
      exact (List.append_cancel_right hz).symm
    have hlast' : p.getLast? = some (y.getLast hy) := by
      rw [hlast, hp', List.getLast?_append, List.getLast?_eq_some_getLast hy]
      rfl
    obtain ⟨hliteral, hident⟩ := hx _ (List.mem_append_left t (List.getLast_mem hy))
    exact ((hquote _ hlast').elim hliteral hident).elim

/-- A complete text is blanked on its own, and the result ends as the text does. -/
theorem Lexed.exists_blankLiterals {pre : Str} (h : Lexed db pre) :
    ∃ out, SameEnd (identQuote db) pre out ∧
      ∀ s, blankLiterals (identQuote db) (hasBackslash db) none (pre ++ s) =
        out ++ blankLiterals (identQuote db) (hasBackslash db) none s := by
  induction h with
  | nil => exact ⟨[], .nil, fun s => rfl⟩
  | @plain c s hliteral hident _ ih =>
    obtain ⟨out, hend, hout⟩ := ih
    refine ⟨c :: out, hend.cons hliteral hident, fun s => ?_⟩
    rw [List.cons_append, blankLiterals_plain hliteral hident, hout]
    rfl
  | @literal b s hb _ ih =>
    obtain ⟨out, hend, hout⟩ := ih
    obtain ⟨b', hb'⟩ := exists_blankLiterals_body hb
    refine ⟨'\'' :: b' ++ '\'' :: out, hend.append_quote (.inl rfl) ('\'' :: b) _, fun s => ?_⟩
    rw [List.cons_append, List.append_assoc, List.cons_append, blankLiterals_none,
      if_pos (.inl rfl), hb', hout]
    simp
  | @ident b s hb _ ih =>
    obtain ⟨out, hend, hout⟩ := ih
    refine ⟨identQuote db :: b ++ identQuote db :: out,
      hend.append_quote (.inr rfl) (identQuote db :: b) _, fun s => ?_⟩
    rw [List.cons_append, List.append_assoc, List.cons_append, blankLiterals_none,
      if_pos (.inr rfl), blankLiterals_identBody hb, hout]
    simp

end TdExport.Sql
