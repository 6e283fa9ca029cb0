import TdExport.Core.Quoted
import TdExport.Export.Sql.Lexing

/-!
# What is blanked

`without_string_literals` keeps every character of a definition in its place, and writes a space for
each one that a literal says.
-/

namespace TdExport.Sql

open Core

variable {db : DbType}

/-! ### The parts of a definition -/

/-- A part of the inside of a literal: a character, a doubled apostrophe or a backslash pair. -/
inductive LiteralPart (db : DbType)
  | char (c : Char) (h : c ≠ '\'' ∧ ¬ (c = '\\' ∧ hasBackslash db = true))
  | apostrophes
  | pair (h : hasBackslash db = true) (c : Char)

/-- A part of a definition: text without quotation marks, a literal or a quoted identifier. -/
inductive Segment (db : DbType)
  | plain (s : Str) (h : ∀ c ∈ s, c ≠ '\'' ∧ c ≠ identQuote db)
  | literal (body : List (LiteralPart db))
  | ident (name : Str)

/-- A character and whether it is blanked. -/
abbrev Marked := Char × Bool

/-- Text that is not blanked. -/
def kept (s : Str) : List Marked := s.map (·, false)

def LiteralPart.marked : LiteralPart db → List Marked
  | .char c _ => [(c, true)]
  | .apostrophes => kept ['\'', '\'']
  | .pair _ c => [('\\', true), (c, true)]

def Segment.marked : Segment db → List Marked
  | .plain s _ => kept s
  | .literal body => kept ['\''] ++ body.flatMap LiteralPart.marked ++ kept ['\'']
  | .ident name => kept (quotedBy (identQuote db) name)

def Segment.IsLiteral : Segment db → Prop
  | .literal _ => True
  | _ => False

/-- The characters of a definition, each with whether it is blanked. -/
def marked (segments : List (Segment db)) : List Marked := segments.flatMap Segment.marked

def ddlText (segments : List (Segment db)) : Str := (marked segments).map Prod.fst

/-- What stands for a character in the result. -/
def blank (p : Marked) : Char := if p.2 then ' ' else p.1

/-- The same characters are blanked, and the others are the same. -/
def SameOutside (segments segments' : List (Segment db)) : Prop :=
  List.Forall₂ (fun p p' => p.2 = p'.2 ∧ (p.2 = false → p.1 = p'.1)) (marked segments)
    (marked segments')

@[simp] lemma map_fst_kept (s : Str) : (kept s).map Prod.fst = s := by
  simp [kept, Function.comp_def]

@[simp] lemma map_blank_kept (s : Str) : (kept s).map blank = s := by
  simp [kept, blank, Function.comp_def]

lemma marked_cons (segment : Segment db) (segments : List (Segment db)) :
    marked (segment :: segments) = segment.marked ++ marked segments :=
  List.flatMap_cons

lemma marked_append (segments segments' : List (Segment db)) :
    marked (segments ++ segments') = marked segments ++ marked segments' :=
  List.flatMap_append

/-! ### One part -/

/-- The inside of an identifier is closed by the next single mark. -/
lemma identBody_doubled (q : Char) (name : Str) : IdentBody q (doubled q name) := by
  induction name with
  | nil => exact .nil
  | cons c name ih =>
    by_cases hc : c = q
    · rw [hc, doubled_cons_self]
      exact .doubled ih
    · rw [doubled_cons_of_ne hc]
      exact .plain hc ih

/-- The inside of a literal is blanked part by part, up to the apostrophe that closes it. -/
lemma blankLiterals_parts (body : List (LiteralPart db)) (s : Str) :
    blankLiterals (identQuote db) (hasBackslash db) (some '\'')
        ((body.flatMap LiteralPart.marked).map Prod.fst ++ '\'' :: s) =
      (body.flatMap LiteralPart.marked).map blank ++
        '\'' :: blankLiterals (identQuote db) (hasBackslash db) none s := by
  induction body with
  | nil => exact blankLiterals_apostrophe s
  | cons part body ih =>
    rw [List.flatMap_cons, List.map_append, List.map_append, List.append_assoc, List.append_assoc,
      ← ih]
    cases part with
    | char c h => exact blankLiterals_literal h.1 h.2 _
    | apostrophes =>
      show blankLiterals _ _ (some '\'') ('\'' :: '\'' :: _) = '\'' :: '\'' :: _
      rw [blankLiterals_apostrophe, blankLiterals_none, if_pos (.inl rfl)]
      rfl
    | pair h c =>
      rw [h]
      exact blankLiterals_pair c _

lemma blankLiterals_segment (segment : Segment db) (s : Str) :
    blankLiterals (identQuote db) (hasBackslash db) none (segment.marked.map Prod.fst ++ s) =
      segment.marked.map blank ++ blankLiterals (identQuote db) (hasBackslash db) none s := by
  cases segment with
  | plain t h =>
    rw [Segment.marked, map_fst_kept, map_blank_kept]
    exact copied_plain h s
  | literal body =>
    have hbody := blankLiterals_parts body s
    simp only [Segment.marked, List.map_append, map_fst_kept, map_blank_kept, List.append_assoc,
      List.cons_append, List.nil_append]
    rw [blankLiterals_none, if_pos (.inl rfl), hbody]
  | ident name =>
    rw [Segment.marked, map_fst_kept, map_blank_kept]
    exact copied_ident (identBody_doubled _ name) s

/-! ### The whole definition -/

lemma withoutStringLiterals_ddlText (segments : List (Segment db)) :
    withoutStringLiterals (ddlText segments) db = (marked segments).map blank := by
  rw [withoutStringLiterals_eq, ddlText]
  induction segments with
  | nil => rfl
  | cons segment segments ih =>
    rw [marked_cons, List.map_append, List.map_append, blankLiterals_segment, ih]

/-- A space inside a literal. -/
def LiteralPart.space : LiteralPart db := .char ' ' ⟨by decide, by simp⟩

def LiteralPart.blanked : LiteralPart db → List (LiteralPart db)
  | .char _ _ => [space]
  | .apostrophes => [apostrophes]
  | .pair _ _ => [space, space]

def Segment.blanked : Segment db → Segment db
  | .literal body => .literal (body.flatMap LiteralPart.blanked)
  | segment => segment

/-- Blank a character and keep its mark. -/
def blankMarked (p : Marked) : Marked := (blank p, p.2)

lemma map_blankMarked_kept (s : Str) : (kept s).map blankMarked = kept s := by
  simp [kept, blankMarked, blank, Function.comp_def]

lemma LiteralPart.marked_blanked (part : LiteralPart db) :
    part.blanked.flatMap marked = part.marked.map blankMarked := by
  cases part <;> rfl

lemma Segment.marked_blanked (segment : Segment db) :
    segment.blanked.marked = segment.marked.map blankMarked := by
  cases segment with
  | plain s h => exact (map_blankMarked_kept s).symm
  | literal body =>
    rw [blanked, marked, marked, List.map_append, List.map_append, map_blankMarked_kept,
      List.flatMap_assoc, List.map_flatMap]
    simp only [LiteralPart.marked_blanked]
  | ident name => exact (map_blankMarked_kept _).symm

lemma marked_map_blanked (segments : List (Segment db)) :
    marked (segments.map Segment.blanked) = (marked segments).map blankMarked := by
  rw [marked, marked, List.flatMap_map, List.map_flatMap]
  simp only [Segment.marked_blanked]

lemma blank_blankMarked (p : Marked) : blank (blankMarked p) = blank p := by
  obtain ⟨c, b⟩ := p
  cases b <;> rfl

/-- The result is a definition, in which the same characters are blanked. -/
lemma ddlText_map_blanked (segments : List (Segment db)) :
    ddlText (segments.map Segment.blanked) = (marked segments).map blank := by
  rw [ddlText, marked_map_blanked, List.map_map]
  rfl

/-- The characters that are blanked do not matter. -/
lemma SameOutside.map_blank {segments segments' : List (Segment db)}
    (h : SameOutside segments segments') :
    (marked segments').map blank = (marked segments).map blank := by
  have hblank : List.Forall₂ (· = ·) ((marked segments).map blank)
      ((marked segments').map blank) := by
    refine List.forall₂_map_left_iff.mpr (List.forall₂_map_right_iff.mpr ?_)
    refine h.imp fun p p' ⟨hmark, hsame⟩ => ?_
    unfold blank
    rw [← hmark]
    cases hp : p.2 with
    | false => exact hsame hp
    | true => rfl
  rw [List.forall₂_eq_eq_eq] at hblank
  exact hblank.symm

/-- Exactly the characters that the literals of a definition say are blanked. What is outside them
stays, nothing is blanked twice, and what they say does not matter. -/
theorem withoutStringLiterals_spec (db : DbType) (segments : List (Segment db)) :
    withoutStringLiterals (ddlText segments) db = (marked segments).map blank ∧
    (withoutStringLiterals (ddlText segments) db).length = (ddlText segments).length ∧
    (∀ before segment after, segments = before ++ segment :: after → ¬ segment.IsLiteral →
      withoutStringLiterals (ddlText segments) db =
        withoutStringLiterals (ddlText before) db ++ ddlText [segment] ++
          withoutStringLiterals (ddlText after) db) ∧
    withoutStringLiterals (withoutStringLiterals (ddlText segments) db) db =
      withoutStringLiterals (ddlText segments) db ∧
    ∀ segments', SameOutside segments segments' →
      withoutStringLiterals (ddlText segments') db =
        withoutStringLiterals (ddlText segments) db := by
  refine ⟨withoutStringLiterals_ddlText segments, ?_, ?_, ?_, ?_⟩
  · rw [withoutStringLiterals_ddlText, ddlText, List.length_map, List.length_map]
  · rintro before segment after rfl hliteral
    have hsegment : segment.marked.map blank = ddlText [segment] := by
      cases segment with
      | plain s h => simp [ddlText, marked, Segment.marked]
      | literal body => exact absurd trivial hliteral
      | ident name => simp [ddlText, marked, Segment.marked]
    rw [withoutStringLiterals_ddlText, withoutStringLiterals_ddlText,
      withoutStringLiterals_ddlText, marked_append, marked_cons, List.map_append, List.map_append,
      List.append_assoc, hsegment]
  · rw [withoutStringLiterals_ddlText, ← ddlText_map_blanked, withoutStringLiterals_ddlText,
      marked_map_blanked, List.map_map, ddlText_map_blanked]
    exact List.map_congr_left fun p _ => blank_blankMarked p
  · intro segments' h
    rw [withoutStringLiterals_ddlText, withoutStringLiterals_ddlText, h.map_blank]

/-- `SELECT '…', "it's"`. -/
def selectSegments (body : List (LiteralPart .postgres)) : List (Segment .postgres) :=
  [.plain "SELECT ".toList (by simp [identQuote]), .literal body,
    .plain ", ".toList (by simp [identQuote]), .ident "it's".toList]

def letter (c : Char) (h : c ≠ '\'') : LiteralPart .postgres := .char c ⟨h, by simp [hasBackslash]⟩

/-- The literals `'it''s'` and `'no''t'` say different texts of the same length. -/
theorem withoutStringLiterals_spec_its :
    withoutStringLiterals "SELECT 'it''s', \"it's\"" .postgres = "SELECT '  '' ', \"it's\"" ∧
    withoutStringLiterals "SELECT 'no''t', \"it's\"" .postgres = "SELECT '  '' ', \"it's\"" := by
  have h := withoutStringLiterals_spec .postgres (selectSegments
    [letter 'i' (by decide), letter 't' (by decide), .apostrophes, letter 's' (by decide)])
  have hno := h.2.2.2.2 (selectSegments
    [letter 'n' (by decide), letter 'o' (by decide), .apostrophes, letter 't' (by decide)])
  refine ⟨h.1, (hno ?_).trans h.1⟩
  simp [SameOutside, marked, selectSegments, Segment.marked, LiteralPart.marked, letter, kept]

/-! ### The definitions that have such parts -/

lemma LiteralBody.exists_parts {b : Str} (hb : LiteralBody db b) :
    ∃ body : List (LiteralPart db), (body.flatMap LiteralPart.marked).map Prod.fst = b := by
  induction hb with
  | nil => exact ⟨[], rfl⟩
  | @plain c b hliteral hbackslash _ ih =>
    obtain ⟨body, rfl⟩ := ih
    exact ⟨.char c ⟨hliteral, hbackslash⟩ :: body, rfl⟩
  | doubled _ ih =>
    obtain ⟨body, rfl⟩ := ih
    exact ⟨.apostrophes :: body, rfl⟩
  | @pair c b hbackslash _ ih =>
    obtain ⟨body, rfl⟩ := ih
    exact ⟨.pair hbackslash c :: body, rfl⟩

lemma literalBody_parts (body : List (LiteralPart db)) :
    LiteralBody db ((body.flatMap LiteralPart.marked).map Prod.fst) := by
  induction body with
  | nil => exact .nil
  | cons part body ih =>
    cases part with
    | char c h => exact .plain h.1 h.2 ih
    | apostrophes => exact .doubled ih
    | pair h c => exact .pair h ih

lemma exists_doubled {q : Char} {b : Str} (hb : IdentBody q b) :
    ∃ name, doubled q name = b := by
  induction hb with
  | nil => exact ⟨[], rfl⟩
  | @plain c b hc _ ih =>
    obtain ⟨name, rfl⟩ := ih
    exact ⟨c :: name, doubled_cons_of_ne hc name⟩
  | doubled _ ih =>
    obtain ⟨name, rfl⟩ := ih
    exact ⟨q :: name, doubled_cons_self q name⟩

lemma ddlText_cons (segment : Segment db) (segments : List (Segment db)) :
    ddlText (segment :: segments) = segment.marked.map Prod.fst ++ ddlText segments := by
  rw [ddlText, marked_cons, List.map_append, ← ddlText]

/-- The definitions with such parts are those whose literals and quoted identifiers are complete. -/
theorem lexed_iff_exists_segments {s : Str} :
    Lexed db s ↔ ∃ segments : List (Segment db), ddlText segments = s := by
  constructor
  · intro h
    induction h with
    | nil => exact ⟨[], rfl⟩
    | @plain c s hliteral hident _ ih =>
      obtain ⟨segments, rfl⟩ := ih
      refine ⟨.plain [c] (by simp [hliteral, hident]) :: segments, ?_⟩
      rw [ddlText_cons]
      rfl
    | literal hb _ ih =>
      obtain ⟨segments, rfl⟩ := ih
      obtain ⟨body, rfl⟩ := hb.exists_parts
      refine ⟨.literal body :: segments, ?_⟩
      rw [ddlText_cons]
      simp [Segment.marked]
    | ident hb _ ih =>
      obtain ⟨segments, rfl⟩ := ih
      obtain ⟨name, rfl⟩ := exists_doubled hb
      refine ⟨.ident name :: segments, ?_⟩
      rw [ddlText_cons]
      simp [Segment.marked, quotedBy]
  · rintro ⟨segments, rfl⟩
    induction segments with
    | nil => exact .nil
    | cons segment segments ih =>
      rw [ddlText_cons]
      cases segment with
      | plain t h =>
        rw [Segment.marked, map_fst_kept]
        exact ih.plain_append h
      | literal body =>
        have h := Lexed.literal (literalBody_parts body) ih
        simpa [Segment.marked] using h
      | ident name =>
        have h := Lexed.ident (identBody_doubled (identQuote db) name) ih
        simpa [Segment.marked, quotedBy] using h

/-! ### References -/

/-- Whether a view refers to another one does not depend on what its literals say. -/
theorem dependsOnView_congr (u : Unicode) (schema : Str) {view view' : TableDef}
    {segments segments' : List (Segment db)} (hname : view.tableName = view'.tableName)
    (hview : view.ddl = some (ddlText segments)) (hview' : view'.ddl = some (ddlText segments'))
    (h : SameOutside segments segments') (other : TableDef) :
    dependsOnView u schema db view other = dependsOnView u schema db view' other := by
  unfold dependsOnView
  rw [hname, hview, hview', Option.getD_some, Option.getD_some, withoutStringLiterals_ddlText,
    withoutStringLiterals_ddlText, h.map_blank]

end TdExport.Sql
