import TdExport.Core.Lines
import TdExport.Export.Markdown.Rows

/-!
# What the sections add to the document

The lines, headings and link targets of the document outside the view bodies, and which names and
actions make the section of a table add one.
-/

namespace TdExport.Markdown

open Core

/-! ### The document outside the view bodies -/

section Outside

variable (u : Unicode) (t : TableDef)

/-- The fenced query in the section of a view. -/
def viewBody : Str :=
  if !t.general.isTable && t.general.isView then
    match t.view with
    | some view => writeViewFencedSql view.viewQuery
    | none => []
  else []

/-- What stands between the heading of a section and its view body. -/
def sectionText : Str :=
  if t.general.isTable then
    informationTable t ++ columnsHeading ++ t.columns.flatMap (fun c => writeln (columnRow c)) ++
      writeln [] ++ indexSection t ++ constraintSection t
  else if t.general.isView then
    writeln "|Table type|Charset|Collate|" ++ writeln "|---|---|---|" ++
      (match t.view with
        | some view => writeln (tableRow [cell t.general.tableType, cell view.charset,
            cell view.collate])
        | none => writeln ("|" ++ t.general.tableType ++ "||  |")) ++
      writeln [] ++ writeln "**View Create SQL**"
  else []

/-- A section without its view body. -/
def outsideSection : Str := sectionHeading u t ++ sectionText t ++ writeln " "

def outsideViews (schema : Str) (tables : List TableDef) : Str :=
  documentHead u schema tables ++ tables.flatMap (outsideSection u)

end Outside

/-! ### Lines, headings and link targets -/

def linesOf (s : Str) : List Str := s.splitOnP isLineBreak

def isHeading (line : Str) : Bool := "## ".toList.isPrefixOf line

/-- The headings, each with the line after it. -/
def headings : List Str → List (Str × Option Str)
  | [] => []
  | line :: lines =>
    if isHeading line then (line, lines.head?) :: headings lines else headings lines

/-- The bullet lines of the table list. -/
def bullets (lines : List Str) : List Str :=
  let list := ((lines.dropWhile (· ≠ "## Table List".toList)).drop 1).takeWhile (!isHeading ·)
  (list.map trimStart).filter ("- [".toList.isPrefixOf ·)

/-- The number of places where the target of a link may begin, `](`. -/
def linkTargets (s : Str) : ℕ := pairCount ']' '(' s

/-! ### Cells -/

@[simp] lemma linkTargets_nil : linkTargets [] = 0 := rfl

@[simp] lemma linkTargets_cons (c : Char) (s : Str) :
    linkTargets (c :: s) = (if c = ']' ∧ s.head? = some '(' then 1 else 0) + linkTargets s := rfl

lemma linkTargets_append_eq_zero {s t : Str} :
    linkTargets (s ++ t) = 0 ↔
      linkTargets s = 0 ∧ linkTargets t = 0 ∧
        ¬(s.getLast? = some ']' ∧ t.head? = some '(') := pairCount_append_eq_zero

lemma linkTargets_append_of_getLast? {s : Str} (h : s.getLast? ≠ some ']') (t : Str) :
    linkTargets (s ++ t) = linkTargets s + linkTargets t := pairCount_append_of_getLast? h t

lemma linkTargets_append_of_head? (s : Str) {t : Str} (h : t.head? ≠ some '(') :
    linkTargets (s ++ t) = linkTargets s + linkTargets t := pairCount_append_of_head? s h

/-- Fixed text that does not end with a bracket keeps what is before it from what is after it. -/
lemma linkTargets_append_fixed_append {fixed : Str} {d : Char} (h : fixed.getLast? = some d)
    (hd : d ≠ ']') (s t : Str) :
    linkTargets (s ++ fixed ++ t) = linkTargets (s ++ fixed) + linkTargets t := by
  refine linkTargets_append_of_getLast? ?_ t
  simpa [List.getLast?_append, h] using hd

lemma escapedChar_ne_nil (prev : Option Char) (c : Char) : escapedChar prev c ≠ [] := by
  unfold escapedChar
  split_ifs <;> simp

lemma head?_escapedChar {prev : Option Char} {c : Char} :
    (escapedChar prev c).head? = some '(' ↔ c = '(' ∧ prev ≠ some ']' := by
  unfold escapedChar
  split_ifs with hesc hparen hbreak
  · have hne : c ≠ '(' := by
      rintro rfl
      simp [isEscaped] at hesc
    simp [hne]
  · simp [hparen]
  · have hne : c ≠ '(' := by
      rintro rfl
      simp [isLineBreak] at hbreak
    simp [hne]
  · simpa using not_and.mp hparen

lemma getLast?_escapedChar {prev : Option Char} {c : Char} :
    (escapedChar prev c).getLast? = some ']' ↔ c = ']' := by
  unfold escapedChar
  split_ifs with hesc hparen hbreak
  · simp
  · simp [hparen.1]
  · have hne : c ≠ ']' := by
      rintro rfl
      simp [isLineBreak] at hbreak
    simp [hne]
  · simp

lemma linkTargets_escapedChar (prev : Option Char) (c : Char) :
    linkTargets (escapedChar prev c) = 0 := by
  unfold escapedChar
  split_ifs <;> simp

/-- The loop opens no link, not even after what was read before. -/
lemma linkTargets_escapeFrom (prev : Option Char) (s : Str) :
    linkTargets (escapeFrom prev s) = 0 ∧
      (prev = some ']' → (escapeFrom prev s).head? ≠ some '(') := by
  induction prev, s using escapeFrom_induction with
  | nil prev => exact ⟨rfl, by simp [escapeFrom]⟩
  | crlf prev s ih =>
    rw [escapeFrom]
    simp [ih]
  | char prev c s hcrlf ih =>
    rw [escapeFrom_char prev hcrlf]
    constructor
    · refine linkTargets_append_eq_zero.mpr ⟨linkTargets_escapedChar prev c, ih.1, ?_⟩
      rintro ⟨hlast, hhead⟩
      obtain rfl := getLast?_escapedChar.mp hlast
      exact ih.2 rfl hhead
    · rw [List.head?_append_of_ne_nil _ (escapedChar_ne_nil prev c)]
      exact fun hprev hhead => (head?_escapedChar.mp hhead).2 hprev

lemma escapeFrom_eq_nil {prev : Option Char} {s : Str} : escapeFrom prev s = [] ↔ s = [] := by
  induction prev, s using escapeFrom_induction with
  | nil prev => simp [escapeFrom]
  | crlf prev s ih => simp [escapeFrom]
  | char prev c s hcrlf ih => simp [escapeFrom_char prev hcrlf, escapedChar_ne_nil]

/-- Only a bracket at the end leaves one at the end. -/
lemma getLast?_escapeFrom {prev : Option Char} {s : Str} :
    (escapeFrom prev s).getLast? = some ']' ↔ s.getLast? = some ']' := by
  induction prev, s using escapeFrom_induction with
  | nil prev => simp [escapeFrom]
  | crlf prev s ih =>
    rw [escapeFrom]
    rcases s.eq_nil_or_concat with rfl | ⟨r, d, rfl⟩
    · simp [escapeFrom]
    · have hne : escapeFrom (some '\r') (r.concat d) ≠ [] := by simp [escapeFrom_eq_nil]
      rw [List.getLast?_append_of_ne_nil _ hne, ih]
      simp [List.getLast?_cons]
  | char prev c s hcrlf ih =>
    rw [escapeFrom_char prev hcrlf]
    rcases s.eq_nil_or_concat with rfl | ⟨r, d, rfl⟩
    · simpa [escapeFrom] using getLast?_escapedChar
    · have hne : escapeFrom (some c) (r.concat d) ≠ [] := by simp [escapeFrom_eq_nil]
      rw [List.getLast?_append_of_ne_nil _ hne, ih]
      simp [List.getLast?_cons]

@[simp] lemma cell_eq_nil {s : Str} : cell s = [] ↔ s = [] := by
  rw [cell_eq_escapeFrom, escapeFrom_eq_nil]

@[simp] lemma linkTargets_cell (s : Str) : linkTargets (cell s) = 0 := by
  rw [cell_eq_escapeFrom]
  exact (linkTargets_escapeFrom none s).1

lemma getLast?_cell {s : Str} : (cell s).getLast? = some ']' ↔ s.getLast? = some ']' := by
  rw [cell_eq_escapeFrom, getLast?_escapeFrom]

lemma head?_cell {s : Str} : (cell s).head? = some '(' ↔ s.head? = some '(' := by
  rw [cell_eq_escapeFrom]
  cases s with
  | nil => simp [escapeFrom]
  | cons c s =>
    by_cases hcrlf : c = '\r' ∧ ∃ s', s = '\n' :: s'
    · obtain ⟨rfl, s', rfl⟩ := hcrlf
      simp [escapeFrom]
    · rw [escapeFrom_char none fun s' hc hs => hcrlf ⟨hc, s', hs⟩,
        List.head?_append_of_ne_nil _ (escapedChar_ne_nil none c), head?_escapedChar]
      simp

/-! ### Quiet text -/

/-- The number of heading lines. -/
def headingCount (s : Str) : ℕ := (linesOf s).countP isHeading

lemma linesOf_writeln_append (s t : Str) : linesOf (writeln s ++ t) = linesOf s ++ linesOf t :=
  splitOnP_concat_append rfl s t

lemma linesOf_oneLine {s : Str} (h : OneLine s) : linesOf s = [s] := List.splitOnP_eq_singleton h

lemma lineAdditive_headingCount : LineAdditive isLineBreak headingCount := lineAdditive_countP rfl

lemma lineAdditive_linkTargets : LineAdditive isLineBreak linkTargets := lineAdditive_pairCount rfl

lemma endsLine_writeln (s : Str) : EndsLine isLineBreak (writeln s) := endsLine_concat rfl s

lemma headingCount_writeln (s : Str) : headingCount (writeln s) = headingCount s := by
  simpa [headingCount, linesOf, isHeading] using
    congrArg (List.countP isHeading) (linesOf_writeln_append s [])

lemma headingCount_oneLine {s : Str} (h : OneLine s) :
    headingCount s = if isHeading s then 1 else 0 := by
  rw [headingCount, linesOf_oneLine h, List.countP_singleton]

lemma linkTargets_writeln (s : Str) : linkTargets (writeln s) = linkTargets s := by
  rw [writeln, linkTargets_append_of_head? s (by simp)]
  simp

lemma isHeading_of_head? {line : Str} (h : line.head? ≠ some '#') : isHeading line = false := by
  rw [← Bool.not_eq_true]
  intro hprefix
  obtain ⟨rest, rfl⟩ := List.isPrefixOf_iff_prefix.mp hprefix
  exact h (by simp)

/-- Whole lines without a heading and without a link target. -/
structure Quiet (s : Str) : Prop where
  endsLine : EndsLine isLineBreak s
  heading : headingCount s = 0
  link : linkTargets s = 0

lemma quiet_nil : Quiet [] := ⟨endsLine_nil, rfl, rfl⟩

lemma Quiet.append {s t : Str} (hs : Quiet s) (ht : Quiet t) : Quiet (s ++ t) where
  endsLine := hs.endsLine.append ht.endsLine
  heading := by rw [lineAdditive_headingCount.append t hs.endsLine, hs.heading, ht.heading]
  link := by rw [lineAdditive_linkTargets.append t hs.endsLine, hs.link, ht.link]

lemma quiet_flatMap {α : Type*} {f : α → Str} {l : List α} (h : ∀ a ∈ l, Quiet (f a)) :
    Quiet (l.flatMap f) where
  endsLine := .flatMap fun a ha => (h a ha).endsLine
  heading := (lineAdditive_headingCount.flatMap_eq_zero fun a ha => (h a ha).endsLine).mpr
    fun a ha => (h a ha).heading
  link := (lineAdditive_linkTargets.flatMap_eq_zero fun a ha => (h a ha).endsLine).mpr
    fun a ha => (h a ha).link

lemma quiet_writeln {s : Str} (hline : OneLine s) (hhead : isHeading s = false)
    (hlink : linkTargets s = 0) : Quiet (writeln s) where
  endsLine := endsLine_writeln s
  heading := by simp [headingCount_writeln, headingCount_oneLine hline, hhead]
  link := by rw [linkTargets_writeln, hlink]

/-- Most fixed lines of the document: no heading and no closing bracket. -/
def isPlain (s : Str) : Bool :=
  s.head? != some '#' && s.all fun c => !isLineBreak c && c != ']'

lemma quiet_fixed {s : Str} (h : isPlain s = true) : Quiet (writeln s) := by
  simp only [isPlain, Bool.and_eq_true, bne_iff_ne, ne_eq, List.all_eq_true,
    Bool.not_eq_true'] at h
  obtain ⟨hhead, hchars⟩ := h
  refine quiet_writeln (fun c hc => (hchars c hc).1) (isHeading_of_head? hhead) ?_
  exact pairCount_eq_zero_of_not_mem fun hmem => (hchars _ hmem).2 rfl

lemma linkTargets_tableRow (values : List Str) : linkTargets (tableRow (values.map cell)) = 0 := by
  have hcells : linkTargets ((values.map cell).flatMap (· ++ ['|'])) = 0 := by
    induction values with
    | nil => rfl
    | cons v values ih =>
      rw [List.map_cons, List.flatMap_cons, linkTargets_append_of_getLast? (by simp), ih,
        linkTargets_append_of_head? _ (by simp)]
      simp
  rw [tableRow, linkTargets_cons, hcells]
  simp

lemma quiet_tableRow (values : List Str) : Quiet (writeln (tableRow (values.map cell))) :=
  quiet_writeln (oneLine_tableRow values) rfl (linkTargets_tableRow values)

/-! ### Sections -/

section Sections

variable (t : TableDef)

lemma quiet_informationTable : Quiet (informationTable t) := by
  apply Quiet.append
  · apply Quiet.append
    · exact (quiet_fixed rfl).append
        (quiet_fixed rfl)
    · exact quiet_tableRow [t.general.tableType, t.general.engine.getD [],
        t.general.rowFormat.getD [], t.general.collate.getD [], t.general.comment.getD []]
  · exact quiet_fixed rfl

lemma quiet_columnsHeading : Quiet columnsHeading :=
  ((quiet_fixed rfl).append
    (quiet_fixed rfl)).append
      (quiet_fixed rfl)

lemma quiet_columnRows :
    Quiet (t.columns.flatMap fun c => writeln (columnRow c)) :=
  quiet_flatMap fun c _ => quiet_tableRow (shownValues c)

/-- The section of a view is quiet outside its body. -/
lemma quiet_sectionText_of_not_isTable (h : t.general.isTable = false) : Quiet (sectionText t) := by
  rw [sectionText, h, if_neg Bool.false_ne_true]
  split_ifs with hview
  · refine .append (.append (.append (.append ?_ ?_) ?_) ?_) ?_
    · exact quiet_fixed rfl
    · exact quiet_fixed rfl
    · cases t.view with
      | some view => exact quiet_tableRow [t.general.tableType, view.charset, view.collate]
      | none =>
        simp only [GeneralInfo.isView, decide_eq_true_eq] at hview
        rcases hview with hview | hview <;> rw [hview] <;>
          exact quiet_fixed rfl
    · exact quiet_fixed rfl
    · exact quiet_fixed rfl
  · exact quiet_nil

end Sections

/-! ### Indexes and constraints -/

/-- The labels consist of letters and hyphens. -/
lemma not_mem_kindLabel {c : Char} (hc : (c.isAlpha || c == '-') = false) (i : IndexInfo) :
    c ∉ i.kindLabel := by
  let p (c : Char) : Bool := c.isAlpha || c == '-'
  have hite {cond : Prop} [Decidable cond] {s t : Str} (hs : s.all p = true)
      (ht : t.all p = true) : (if cond then s else t).all p = true := by
    split_ifs
    · exact hs
    · exact ht
  have hlabel : i.kindLabel.all p = true := by
    unfold IndexInfo.kindLabel
    iterate 9 refine hite rfl ?_
    rfl
  intro hmem
  have htrue : (c.isAlpha || c == '-') = true := List.all_eq_true.mp hlabel c hmem
  rw [htrue] at hc
  cases hc

lemma linkTargets_kindLabel (i : IndexInfo) : linkTargets ("- [" ++ i.kindLabel ++ "]") = 0 := by
  have hkind : linkTargets i.kindLabel = 0 :=
    pairCount_eq_zero_of_not_mem (not_mem_kindLabel rfl i)
  rw [linkTargets_append_of_head? _ (by simp), linkTargets_append_of_getLast? (by simp), hkind]
  simp

lemma oneLine_kindLabel (i : IndexInfo) : OneLine i.kindLabel := by
  intro c hc
  rw [← Bool.not_eq_true]
  intro hbreak
  simp only [isLineBreak, Bool.or_eq_true, beq_iff_eq] at hbreak
  rcases hbreak with rfl | rfl <;> exact not_mem_kindLabel rfl i hc

lemma head?_optClause {before after : Str} (hne : before ≠ []) (hhead : before.head? ≠ some '(')
    (s : Option Str) : (optClause before after s).head? ≠ some '(' := by
  cases s with
  | none => simp [optClause]
  | some s => rwa [optClause, List.append_assoc, List.head?_append_of_ne_nil _ hne]

lemma linkTargets_optClause {before after : Str} (hbefore : linkTargets before = 0)
    (hlast : before.getLast? ≠ some ']') (hafter : linkTargets after = 0)
    (hhead : after.head? ≠ some '(') (s : Option Str) :
    linkTargets (optClause before after s) = 0 := by
  cases s with
  | none => rfl
  | some s =>
    rw [optClause, linkTargets_append_of_head? _ hhead, linkTargets_append_of_getLast? hlast,
      hbefore, hafter, linkTargets_cell]

lemma oneLine_optClause {before after : Str} (hbefore : OneLine before) (hafter : OneLine after)
    (s : Option Str) : OneLine (optClause before after s) := by
  cases s with
  | none => exact oneLine_nil
  | some s => simpa [optClause] using ⟨hbefore, oneLine_cell s, hafter⟩

/-- What an index line shows after the name of the index. -/
def indexTail (i : IndexInfo) : Str :=
  "(" ++ cell i.indexColumns ++ ")" ++ optClause " INCLUDE (" ")" i.includeColumns ++
    optClause " WHERE " "" i.predicate

lemma indexLine_eq (i : IndexInfo) :
    indexLine i = writeln ("- [" ++ i.kindLabel ++ "]" ++ cell i.indexName ++ indexTail i) := by
  simp [indexLine, indexTail]

lemma linkTargets_indexTail (i : IndexInfo) : linkTargets (indexTail i) = 0 := by
  have hwhere : linkTargets (optClause " WHERE " "" i.predicate) = 0 :=
    linkTargets_optClause (by simp) (by simp) rfl (by simp) _
  have hinclude : linkTargets (optClause " INCLUDE (" ")" i.includeColumns) = 0 :=
    linkTargets_optClause (by simp) (by simp) rfl (by simp) _
  rw [indexTail, linkTargets_append_of_head? _ (head?_optClause (by simp) (by simp) _),
    linkTargets_append_of_head? _ (head?_optClause (by simp) (by simp) _),
    linkTargets_append_of_head? _ (by simp), linkTargets_append_of_getLast? (by simp),
    hwhere, hinclude, linkTargets_cell]
  simp

lemma oneLine_indexLine (i : IndexInfo) :
    OneLine ("- [" ++ i.kindLabel ++ "]" ++ cell i.indexName ++ indexTail i) := by
  simp [indexTail, oneLine_cell, oneLine_kindLabel, isLineBreak, oneLine_optClause]

/-- The name of an index stands between a closing and an opening bracket, which it has to keep
apart. -/
lemma linkTargets_indexLine {i : IndexInfo} :
    linkTargets (indexLine i) = 0 ↔
      i.indexName ≠ [] ∧ i.indexName.head? ≠ some '(' ∧ i.indexName.getLast? ≠ some ']' := by
  have hkind : ("- [" ++ i.kindLabel ++ "]").getLast? = some ']' := by
    rw [List.getLast?_append_of_ne_nil _ (by simp)]
    rfl
  have hlast : ("- [" ++ i.kindLabel ++ "]" ++ cell i.indexName).getLast? = some ']' ↔
      i.indexName = [] ∨ i.indexName.getLast? = some ']' := by
    by_cases hname : i.indexName = []
    · simpa [hname, cell_eq_nil.mpr] using hkind
    · rw [List.getLast?_append_of_ne_nil _ (cell_eq_nil.not.mpr hname), getLast?_cell]
      simp [hname]
  have hhead : (indexTail i).head? = some '(' := by simp [indexTail]
  rw [indexLine_eq, linkTargets_writeln, linkTargets_append_eq_zero, linkTargets_append_eq_zero,
    hlast, hkind, hhead, head?_cell, linkTargets_kindLabel, linkTargets_cell,
    linkTargets_indexTail]
  simp only [true_and, and_true, not_or, ne_eq]
  exact and_left_comm

lemma headingCount_indexLine (i : IndexInfo) : headingCount (indexLine i) = 0 := by
  rw [indexLine_eq, headingCount_writeln, headingCount_oneLine (oneLine_indexLine i), if_neg]
  simp [isHeading]

/-- What a constraint line shows before the actions. -/
def constraintStart (c : ConstInfo) : Str :=
  "- " ++ cell c.constraintName ++ " FOREIGN KEY (" ++ cell c.constraintColumn ++
    ") Reference " ++ cell c.reference ++ " ON DELETE "

lemma constraintLine_eq (c : ConstInfo) :
    constraintLine c =
      writeln (constraintStart c ++ (c.deleteAction ++ " ON UPDATE " ++ c.updateAction)) := by
  unfold constraintStart
  simp [constraintLine]

lemma linkTargets_constraintLine {c : ConstInfo} :
    linkTargets (constraintLine c) = 0 ↔
      linkTargets c.deleteAction = 0 ∧ linkTargets c.updateAction = 0 := by
  have hstart : linkTargets (constraintStart c) = 0 := by
    unfold constraintStart
    rw [linkTargets_append_of_head? _ (by simp), linkTargets_append_fixed_append rfl (by decide),
      linkTargets_append_of_head? _ (by simp), linkTargets_append_fixed_append rfl (by decide),
      linkTargets_append_of_head? _ (by simp), linkTargets_append_of_getLast? (by decide)]
    simp
  have hactions : linkTargets (constraintStart c ++ (c.deleteAction ++ " ON UPDATE " ++
      c.updateAction)) = linkTargets (constraintStart c) +
        linkTargets (c.deleteAction ++ " ON UPDATE " ++ c.updateAction) :=
    linkTargets_append_fixed_append rfl (by decide) _ _
  rw [constraintLine_eq, linkTargets_writeln, hactions, hstart,
    linkTargets_append_fixed_append rfl (by decide), linkTargets_append_of_head? _ (by simp)]
  simp

lemma headingCount_constraintLine (c : ConstInfo) :
    headingCount (constraintLine c) =
      (linesOf (c.deleteAction ++ " ON UPDATE " ++ c.updateAction)).tail.countP isHeading := by
  have hstart : OneLine (constraintStart c) := by
    unfold constraintStart
    simp [oneLine_cell, isLineBreak]
  rw [constraintLine_eq, headingCount_writeln, headingCount, linesOf,
    splitOnP_append_of_forall hstart, linesOf]
  cases (c.deleteAction ++ " ON UPDATE " ++ c.updateAction).splitOnP isLineBreak with
  | nil => rfl
  | cons line lines =>
    unfold constraintStart
    simp [isHeading]

/-! ### What the sections add -/

section Counts

variable {m : Str → ℕ} (t : TableDef)

/-- A titled list adds what its lines add. -/
lemma titledList_eq_zero {α : Type*} (hm : LineAdditive isLineBreak m)
    (hquiet : ∀ s, Quiet s → m s = 0) {f : α → Str} (hf : ∀ a, EndsLine isLineBreak (f a))
    {title : Str} (htitle : Quiet (writeln title)) (l : List α) [Decidable (l = [])] :
    m (if l = [] then [] else writeln title ++ l.flatMap f ++ writeln []) = 0 ↔
      ∀ a ∈ l, m (f a) = 0 := by
  have hlines : EndsLine isLineBreak (l.flatMap f) := .flatMap fun a _ => hf a
  split_ifs with hl
  · simp [hl, hm.nil]
  · rw [hm.append _ (htitle.endsLine.append hlines), hm.append _ htitle.endsLine,
      hquiet _ htitle, hquiet _ (quiet_fixed rfl)]
    simpa using hm.flatMap_eq_zero fun a _ => hf a

lemma endsLine_titledList {α : Type*} {f : α → Str} (hf : ∀ a, EndsLine isLineBreak (f a))
    (title : Str) (l : List α) [Decidable (l = [])] :
    EndsLine isLineBreak (if l = [] then [] else writeln title ++ l.flatMap f ++ writeln []) := by
  split_ifs
  · exact endsLine_nil
  · exact ((endsLine_writeln title).append (.flatMap fun a _ => hf a)).append (endsLine_writeln [])

/-- The rows of a table before its indexes. -/
lemma quiet_tableRows : Quiet (informationTable t ++ columnsHeading ++
    t.columns.flatMap (fun c => writeln (columnRow c)) ++ writeln []) :=
  (((quiet_informationTable t).append quiet_columnsHeading).append (quiet_columnRows t)).append
    (quiet_fixed rfl)

lemma endsLine_indexSection : EndsLine isLineBreak (indexSection t) :=
  endsLine_titledList (fun _ => endsLine_writeln _) _ _

lemma endsLine_constraintSection : EndsLine isLineBreak (constraintSection t) :=
  endsLine_titledList (fun _ => endsLine_writeln _) _ _

lemma endsLine_sectionText : EndsLine isLineBreak (sectionText t) := by
  cases h : t.general.isTable with
  | false => exact (quiet_sectionText_of_not_isTable t h).endsLine
  | true =>
    rw [sectionText, if_pos h]
    exact ((quiet_tableRows t).endsLine.append (endsLine_indexSection t)).append
      (endsLine_constraintSection t)

/-- Only the lines of the indexes and constraints of a table can add anything. -/
lemma sectionText_eq_zero (hm : LineAdditive isLineBreak m) (hquiet : ∀ s, Quiet s → m s = 0) :
    m (sectionText t) = 0 ↔
      (t.general.isTable = true →
        (∀ i ∈ t.indexes, m (indexLine i) = 0) ∧
          ∀ c ∈ t.constraints, m (constraintLine c) = 0) := by
  cases h : t.general.isTable with
  | false => simp [hquiet _ (quiet_sectionText_of_not_isTable t h)]
  | true =>
    have hindexes : m (indexSection t) = 0 ↔ ∀ i ∈ t.indexes, m (indexLine i) = 0 :=
      titledList_eq_zero hm hquiet (fun _ => endsLine_writeln _)
        (quiet_fixed rfl) _
    have hconstraints :
        m (constraintSection t) = 0 ↔ ∀ c ∈ t.constraints, m (constraintLine c) = 0 :=
      titledList_eq_zero hm hquiet (fun _ => endsLine_writeln _)
        (quiet_fixed rfl) _
    rw [sectionText, if_pos h,
      hm.append _ ((quiet_tableRows t).endsLine.append (endsLine_indexSection t)),
      hm.append _ (quiet_tableRows t).endsLine, hquiet _ (quiet_tableRows t), zero_add,
      Nat.add_eq_zero_iff, hindexes, hconstraints]
    simp

lemma linkTargets_sectionText_eq_zero :
    linkTargets (sectionText t) = 0 ↔
      (t.general.isTable = true →
        (∀ i ∈ t.indexes, i.indexName ≠ [] ∧ i.indexName.head? ≠ some '(' ∧
          i.indexName.getLast? ≠ some ']') ∧
        ∀ c ∈ t.constraints, linkTargets c.deleteAction = 0 ∧ linkTargets c.updateAction = 0) := by
  rw [sectionText_eq_zero t lineAdditive_linkTargets fun _ h => h.link]
  simp only [linkTargets_indexLine, linkTargets_constraintLine]

lemma headingCount_sectionText_eq_zero :
    headingCount (sectionText t) = 0 ↔
      (t.general.isTable = true → ∀ c ∈ t.constraints,
        ∀ line ∈ (linesOf (c.deleteAction ++ " ON UPDATE " ++ c.updateAction)).tail,
          isHeading line = false) := by
  rw [sectionText_eq_zero t lineAdditive_headingCount fun _ h => h.heading]
  simp only [headingCount_indexLine, headingCount_constraintLine, List.countP_eq_zero,
    Bool.not_eq_true]
  simp

end Counts

end TdExport.Markdown
