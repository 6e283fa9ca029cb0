import TdExport.Export.Markdown.Sections

/-!
# What the names of the tables do to the document

Exactly which schemas and tables leave the lines, headings and link targets of the document as they
should be.
-/

namespace TdExport.Markdown

open Core

/-! ### Structured documents -/

/-- The table without its name and its comments. -/
def bare (t : TableDef) : TableDef :=
  { t with
    tableName := []
    general := { t.general with comment := none }
    columns := t.columns.map fun c => { c with comment := none } }

section Statement

variable (u : Unicode) (schema : Str) (tables : List TableDef)

/-- The bullet of a table in the table list. -/
def bullet (t : TableDef) : Str :=
  "- [" ++ t.tableName ++ " (" ++ optCell t.general.comment ++ ")](#" ++
    u.toLowercase t.tableName ++ ")"

/-- Outside the view bodies the lines, headings and link targets of the document are those that
`write_markdown` writes itself. -/
structure Structured : Prop where
  bullets : bullets (linesOf (outsideViews u schema tables)) = tables.map (bullet u)
  headings : ∃ next, headings (linesOf (outsideViews u schema tables)) =
    ("## Table List".toList, next) ::
      tables.map fun t => ("## " ++ u.toLowercase t.tableName, some "**Information**".toList)
  /-- Names and comments make no line of their own. -/
  lines : (linesOf (outsideViews u schema tables)).length =
    (linesOf (outsideViews u schema (tables.map bare))).length
  /-- Every bullet has one link target, and nothing else has one. -/
  links : linkTargets (outsideViews u schema tables) = tables.length

/-- What is written as it is, and not as a cell, does no harm. -/
structure Clean : Prop where
  title_lines : ∀ line ∈ linesOf (schema ++ " "), isHeading line = false
  title_links : linkTargets schema = 0
  name_lines : ∀ t ∈ tables, OneLine t.tableName ∧ OneLine (u.toLowercase t.tableName)
  name_links : ∀ t ∈ tables,
    linkTargets t.tableName = 0 ∧ linkTargets (u.toLowercase t.tableName) = 0
  /-- The name of an index stands between a closing and an opening bracket. -/
  index_links : ∀ t ∈ tables, t.general.isTable = true → ∀ i ∈ t.indexes,
    i.indexName ≠ [] ∧ i.indexName.head? ≠ some '(' ∧ i.indexName.getLast? ≠ some ']'
  action_lines : ∀ t ∈ tables, t.general.isTable = true → ∀ c ∈ t.constraints,
    ∀ line ∈ (linesOf (c.deleteAction ++ " ON UPDATE " ++ c.updateAction)).tail,
      isHeading line = false
  action_links : ∀ t ∈ tables, t.general.isTable = true → ∀ c ∈ t.constraints,
    linkTargets c.deleteAction = 0 ∧ linkTargets c.updateAction = 0

end Statement

/-! ### The link targets of the document -/

section Document

variable (u : Unicode) (schema : Str) (tables : List TableDef)

lemma linkTargets_listEntry (t : TableDef) :
    linkTargets (listEntry u t) =
      1 + linkTargets t.tableName + linkTargets (u.toLowercase t.tableName) := by
  have hstart : linkTargets ("- [" ++ t.tableName ++ " (" ++ optCell t.general.comment) =
      linkTargets t.tableName := by
    rw [optCell, linkTargets_append_fixed_append rfl (by decide),
      linkTargets_append_of_head? _ (by simp), linkTargets_append_of_getLast? (by simp)]
    simp
  have hend : linkTargets (")](#" ++ u.toLowercase t.tableName ++ ")") =
      1 + linkTargets (u.toLowercase t.tableName) := by
    rw [linkTargets_append_of_head? _ (by simp), linkTargets_append_of_getLast? (by simp)]
    simp
  have hentry : listEntry u t = writeln (("- [" ++ t.tableName ++ " (" ++
      optCell t.general.comment) ++ (")](#" ++ u.toLowercase t.tableName ++ ")")) ++ " " := by
    simp [listEntry]
  rw [hentry, linkTargets_append_of_head? _ (by simp), linkTargets_writeln,
    linkTargets_append_of_head? _ (by simp), hstart, hend]
  simp
  omega

lemma linkTargets_sectionHeading (t : TableDef) :
    linkTargets (sectionHeading u t) = linkTargets (u.toLowercase t.tableName) := by
  have hinformation : Quiet (writeln "**Information**") :=
    quiet_fixed rfl
  rw [sectionHeading, lineAdditive_linkTargets.append _ (endsLine_writeln _), hinformation.link,
    linkTargets_writeln, linkTargets_append_of_getLast? (by simp)]
  simp

lemma endsLine_outsideSection (t : TableDef) : EndsLine isLineBreak (outsideSection u t) :=
  (((endsLine_writeln _).append (endsLine_writeln _)).append (endsLine_sectionText t)).append
    (endsLine_writeln _)

lemma linkTargets_outsideSection (t : TableDef) :
    linkTargets (outsideSection u t) =
      linkTargets (u.toLowercase t.tableName) + linkTargets (sectionText t) := by
  have hheading : EndsLine isLineBreak (sectionHeading u t) :=
    (endsLine_writeln _).append (endsLine_writeln _)
  have hblank : Quiet (writeln " ") := quiet_fixed rfl
  rw [outsideSection, lineAdditive_linkTargets.append _ (hheading.append (endsLine_sectionText t)),
    lineAdditive_linkTargets.append _ hheading, linkTargets_sectionHeading, hblank.link, add_zero]

/-- The fixed lines of the head. -/
lemma quiet_underline : Quiet (writeln "=============" ++ writeln []) :=
  (quiet_fixed rfl).append
    (quiet_fixed rfl)

lemma linkTargets_documentHead :
    linkTargets (documentHead u schema tables) =
      linkTargets schema + (tables.map fun t => linkTargets (listEntry u t)).sum := by
  have hhead : documentHead u schema tables = writeln (schema ++ " ") ++
      (writeln "=============" ++ writeln [] ++ (writeln "## Table List" ++
        (tables.flatMap (listEntry u) ++ writeln []))) := by
    simp [documentHead]
  have hlist : linkTargets (writeln "## Table List") = 0 := by simp [linkTargets_writeln]
  have hentries : linkTargets (tables.flatMap (listEntry u)) =
      (tables.map fun t => linkTargets (listEntry u t)).sum :=
    pairCount_flatMap fun t _ => by simp [listEntry, List.getLast?_append]
  have htitle : linkTargets (schema ++ " ") = linkTargets schema := by
    rw [linkTargets_append_of_head? _ (by simp)]
    simp
  rw [hhead, lineAdditive_linkTargets.append _ (endsLine_writeln _),
    lineAdditive_linkTargets.append _ quiet_underline.endsLine,
    lineAdditive_linkTargets.append _ (endsLine_writeln "## Table List"), linkTargets_writeln,
    htitle, quiet_underline.link, hlist, zero_add, zero_add]
  exact congrArg _ ((linkTargets_writeln _).trans hentries)

lemma linkTargets_outsideViews :
    linkTargets (outsideViews u schema tables) = tables.length + (linkTargets schema +
      (tables.map fun t => linkTargets t.tableName + 2 * linkTargets (u.toLowercase t.tableName) +
        linkTargets (sectionText t)).sum) := by
  have hhead : EndsLine isLineBreak (documentHead u schema tables) := by
    rw [documentHead]
    exact endsLine_concat rfl _
  rw [outsideViews, lineAdditive_linkTargets.append _ hhead, linkTargets_documentHead,
    lineAdditive_linkTargets.flatMap fun t _ => endsLine_outsideSection u t]
  simp only [linkTargets_listEntry, linkTargets_outsideSection]
  clear hhead
  induction tables with
  | nil => simp
  | cons t tables ih =>
    simp only [List.map_cons, List.sum_cons, List.length_cons] at ih ⊢
    omega

/-- Every bullet has one link target, so nothing else may have one. -/
lemma linkTargets_outsideViews_eq_length :
    linkTargets (outsideViews u schema tables) = tables.length ↔
      linkTargets schema = 0 ∧ ∀ t ∈ tables, linkTargets t.tableName = 0 ∧
        linkTargets (u.toLowercase t.tableName) = 0 ∧ linkTargets (sectionText t) = 0 := by
  rw [linkTargets_outsideViews, Nat.add_eq_left, Nat.add_eq_zero_iff, List.sum_eq_zero_iff]
  simp [and_assoc]

/-! ### The lines of the document -/

lemma countP_eq_zero_iff_oneLine {s : Str} : s.countP isLineBreak = 0 ↔ OneLine s := by
  simp [List.countP_eq_zero, OneLine]

@[simp] lemma countP_writeln (s : Str) :
    (writeln s).countP isLineBreak = s.countP isLineBreak + 1 := by
  simp [writeln, isLineBreak]

lemma countP_oneLine {s : Str} (h : OneLine s) : s.countP isLineBreak = 0 :=
  countP_eq_zero_iff_oneLine.mpr h

lemma countP_tableRow (values : List Str) :
    (tableRow (values.map cell)).countP isLineBreak = 0 := countP_oneLine (oneLine_tableRow values)

/-- The comments of a table make no line. -/
lemma countP_sectionText_bare (t : TableDef) :
    (sectionText (bare t)).countP isLineBreak = (sectionText t).countP isLineBreak := by
  have hinformation (t : TableDef) : (informationTable t).countP isLineBreak =
      (writeln "|Table type|Engine|Row format|Collate|Comment|" ++
        writeln "|---|---|---|---|---|").countP isLineBreak + 2 := by
    have hrow := countP_tableRow [t.general.tableType, t.general.engine.getD [],
      t.general.rowFormat.getD [], t.general.collate.getD [], t.general.comment.getD []]
    simp only [List.map_cons, List.map_nil] at hrow
    simp only [informationTable, optCell, List.countP_append, countP_writeln, hrow,
      List.countP_nil]
  have hrows (columns : List ColumnInfo) :
      (columns.flatMap fun c => writeln (columnRow c)).countP isLineBreak = columns.length := by
    have hrow (c : ColumnInfo) : (columnRow c).countP isLineBreak = 0 :=
      countP_tableRow (shownValues c)
    induction columns with
    | nil => rfl
    | cons c columns ih => simp [hrow, ih, add_comm]
  cases h : t.general.isTable with
  | true =>
    have hbare : (bare t).general.isTable = true := h
    simp only [sectionText, h, hbare, if_true, List.countP_append, hinformation, hrows]
    simp only [bare, List.length_map]
    rfl
  | false =>
    have hbare : (bare t).general.isTable = false := h
    simp only [sectionText, h, hbare, if_neg Bool.false_ne_true]
    rfl

lemma countP_listEntry (t : TableDef) :
    (listEntry u t).countP isLineBreak =
      t.tableName.countP isLineBreak + (u.toLowercase t.tableName).countP isLineBreak + 1 := by
  have hcomment : (optCell t.general.comment).countP isLineBreak = 0 :=
    countP_oneLine (oneLine_cell _)
  simp [listEntry, hcomment, isLineBreak]

lemma countP_outsideSection (t : TableDef) :
    (outsideSection u t).countP isLineBreak =
      (u.toLowercase t.tableName).countP isLineBreak + (sectionText t).countP isLineBreak + 3 := by
  simp [outsideSection, sectionHeading, isLineBreak]
  omega

lemma countP_outsideViews :
    (outsideViews u schema tables).countP isLineBreak =
      (outsideViews u schema (tables.map bare)).countP isLineBreak +
        (tables.map fun t => t.tableName.countP isLineBreak +
          2 * (u.toLowercase t.tableName).countP isLineBreak).sum := by
  have hbare (t : TableDef) : (bare t).tableName = [] := rfl
  simp only [outsideViews, documentHead, List.countP_append]
  induction tables with
  | nil => simp
  | cons t tables ih =>
    simp only [List.map_cons, List.flatMap_cons, List.countP_append, List.sum_cons,
      countP_listEntry, countP_outsideSection, countP_sectionText_bare, hbare,
      Unicode.toLowercase_nil, List.countP_nil] at ih ⊢
    omega

lemma length_linesOf_outsideViews_eq :
    (linesOf (outsideViews u schema tables)).length =
        (linesOf (outsideViews u schema (tables.map bare))).length ↔
      ∀ t ∈ tables, OneLine t.tableName ∧ OneLine (u.toLowercase t.tableName) := by
  rw [linesOf, linesOf, length_splitOnP, length_splitOnP, countP_outsideViews,
    Nat.add_right_cancel_iff, Nat.add_eq_left, List.sum_eq_zero_iff]
  simp [OneLine]

/-! ### Headings and bullets -/

lemma headings_append {lines : List Str} (h : ∀ line ∈ lines, isHeading line = false)
    (rest : List Str) : headings (lines ++ rest) = headings rest := by
  induction lines with
  | nil => rfl
  | cons line lines ih =>
    rw [List.cons_append, headings, h line List.mem_cons_self, if_neg Bool.false_ne_true]
    exact ih fun l hl => h l (List.mem_cons_of_mem _ hl)

lemma length_headings (lines : List Str) : (headings lines).length = lines.countP isHeading := by
  induction lines with
  | nil => rfl
  | cons line lines ih =>
    rw [headings]
    split_ifs with h <;> simp [h, ih]

/-- The lines of the table list, from the text before the first bullet. -/
def bulletLines (before : Str) : List TableDef → List Str
  | [] => [before]
  | t :: tables => (before ++ bullet u t) :: bulletLines " " tables

lemma isHeading_of_mem_bulletLines {before : Str} (hbefore : before = [] ∨ before = " ".toList)
    {line : Str} (h : line ∈ bulletLines u before tables) : isHeading line = false := by
  induction tables generalizing before with
  | nil =>
    rw [bulletLines, List.mem_singleton] at h
    rcases hbefore with rfl | rfl <;> rw [h] <;> exact isHeading_of_head? (by simp)
  | cons t tables ih =>
    rcases List.mem_cons.mp h with rfl | h
    · rcases hbefore with rfl | rfl <;> exact isHeading_of_head? (by unfold bullet; simp)
    · exact ih (.inr rfl) h

lemma filter_bulletLines {before : Str} (hbefore : before = [] ∨ before = " ".toList) :
    ((bulletLines u before tables).map trimStart).filter ("- [".toList.isPrefixOf ·) =
      tables.map (bullet u) := by
  induction tables generalizing before with
  | nil =>
    rcases hbefore with rfl | rfl <;> simp [bulletLines, trimStart, isWhitespace]
  | cons t tables ih =>
    have htrim : trimStart (before ++ bullet u t) = bullet u t := by
      unfold bullet
      rcases hbefore with rfl | rfl <;> simp [trimStart, isWhitespace]
    have hprefix : "- [".toList.isPrefixOf (bullet u t) = true := by
      unfold bullet
      simp
    rw [bulletLines, List.map_cons, htrim, List.filter_cons_of_pos hprefix, ih (.inr rfl)]
    rfl

lemma linesOf_listEntries {before : Str} (hbefore : OneLine before)
    (hnames : ∀ t ∈ tables, OneLine t.tableName ∧ OneLine (u.toLowercase t.tableName))
    (rest : Str) :
    linesOf (before ++ tables.flatMap (listEntry u) ++ writeln [] ++ rest) =
      bulletLines u before tables ++ linesOf rest := by
  induction tables generalizing before with
  | nil =>
    have hline := linesOf_writeln_append before rest
    simpa [linesOf_oneLine hbefore, bulletLines, writeln] using hline
  | cons t tables ih =>
    obtain ⟨hname, hlower⟩ := hnames t List.mem_cons_self
    have hbullet : OneLine (before ++ bullet u t) := by
      have hcomment : OneLine (optCell t.general.comment) := oneLine_cell _
      unfold bullet
      simp [hbefore, hname, hlower, hcomment, isLineBreak]
    have hentry : before ++ (t :: tables).flatMap (listEntry u) ++ writeln [] ++ rest =
        writeln (before ++ bullet u t) ++
          (" " ++ tables.flatMap (listEntry u) ++ writeln [] ++ rest) := by
      unfold bullet
      simp [listEntry, writeln]
    rw [hentry, linesOf_writeln_append, linesOf_oneLine hbullet,
      ih (by simp [isLineBreak]) fun s hs => hnames s (List.mem_cons_of_mem _ hs)]
    rfl

/-- The lines of the document, when every name is on one line. -/
lemma linesOf_outsideViews
    (hnames : ∀ t ∈ tables, OneLine t.tableName ∧ OneLine (u.toLowercase t.tableName)) :
    linesOf (outsideViews u schema tables) =
      linesOf (schema ++ " ") ++ "=============".toList :: [] :: "## Table List".toList ::
        (bulletLines u [] tables ++ linesOf (tables.flatMap (outsideSection u))) := by
  have hdoc : outsideViews u schema tables = writeln (schema ++ " ") ++ (writeln "=============" ++
      (writeln [] ++ (writeln "## Table List" ++ ([] ++ tables.flatMap (listEntry u) ++
        writeln [] ++ tables.flatMap (outsideSection u))))) := by
    simp [outsideViews, documentHead]
  rw [hdoc, linesOf_writeln_append, linesOf_writeln_append, linesOf_writeln_append,
    linesOf_writeln_append, linesOf_listEntries u tables oneLine_nil hnames]
  rfl

lemma linesOf_outsideSection_append {t : TableDef} (h : OneLine (u.toLowercase t.tableName))
    (rest : Str) :
    linesOf (outsideSection u t ++ rest) =
      ("## " ++ u.toLowercase t.tableName) :: "**Information**".toList ::
        (fullLines isLineBreak (sectionText t) ++ " ".toList :: linesOf rest) := by
  have hheading : OneLine ("## " ++ u.toLowercase t.tableName) := by simp [h, isLineBreak]
  have hsection : outsideSection u t ++ rest = writeln ("## " ++ u.toLowercase t.tableName) ++
      (writeln "**Information**" ++ (sectionText t ++ (writeln " " ++ rest))) := by
    simp [outsideSection, sectionHeading]
  have htext : linesOf (sectionText t ++ (writeln " " ++ rest)) =
      fullLines isLineBreak (sectionText t) ++ linesOf (writeln " " ++ rest) :=
    (endsLine_sectionText t).splitOnP_append _
  rw [hsection, linesOf_writeln_append, linesOf_writeln_append, htext, linesOf_writeln_append,
    linesOf_oneLine hheading]
  rfl

lemma headings_sections
    (hnames : ∀ t ∈ tables, OneLine t.tableName ∧ OneLine (u.toLowercase t.tableName))
    (htexts : ∀ t ∈ tables, headingCount (sectionText t) = 0) :
    headings (linesOf (tables.flatMap (outsideSection u))) =
      tables.map fun t => ("## " ++ u.toLowercase t.tableName, some "**Information**".toList) := by
  induction tables with
  | nil => rfl
  | cons t tables ih =>
    have htext : ∀ line ∈ fullLines isLineBreak (sectionText t) ++ [" ".toList],
        isHeading line = false := by
      intro line hline
      rcases List.mem_append.mp hline with hline | hline
      · have hcount := List.countP_eq_zero.mp (htexts t List.mem_cons_self)
        simpa using hcount line (List.mem_of_mem_dropLast hline)
      · rw [List.mem_singleton.mp hline]
        rfl
    rw [List.flatMap_cons, linesOf_outsideSection_append u (hnames t List.mem_cons_self).2,
      headings, if_pos (by simp [isHeading]), headings, if_neg (by simp [isHeading]),
      List.append_cons, headings_append htext,
      ih (fun s hs => hnames s (List.mem_cons_of_mem _ hs))
        fun s hs => htexts s (List.mem_cons_of_mem _ hs)]
    rfl

lemma headingCount_outsideViews
    (hnames : ∀ t ∈ tables, OneLine t.tableName ∧ OneLine (u.toLowercase t.tableName)) :
    headingCount (outsideViews u schema tables) = tables.length + 1 +
      (headingCount (schema ++ " ") + (tables.map fun t => headingCount (sectionText t)).sum) := by
  have hbullets : (bulletLines u [] tables).countP isHeading = 0 :=
    List.countP_eq_zero.mpr fun line hline => by
      simp [isHeading_of_mem_bulletLines u tables (.inl rfl) hline]
  have hsections : (linesOf (tables.flatMap (outsideSection u))).countP isHeading =
      tables.length + (tables.map fun t => headingCount (sectionText t)).sum := by
    clear hbullets
    induction tables with
    | nil => rfl
    | cons t tables ih =>
      have hlower := (hnames t List.mem_cons_self).2
      have htext : (fullLines isLineBreak (sectionText t)).countP isHeading =
          headingCount (sectionText t) := by
        have hlines : linesOf (sectionText t ++ []) = _ :=
          (endsLine_sectionText t).splitOnP_append []
        rw [List.append_nil] at hlines
        rw [headingCount, hlines, List.countP_append]
        rfl
      have hheading : isHeading ("## " ++ u.toLowercase t.tableName) = true := by simp [isHeading]
      have ih := ih fun s hs => hnames s (List.mem_cons_of_mem _ hs)
      rw [List.flatMap_cons, linesOf_outsideSection_append u hlower,
        List.countP_cons_of_pos hheading, List.countP_cons_of_neg (by simp [isHeading]),
        List.countP_append, htext, List.countP_cons_of_neg (by simp [isHeading]), ih,
        List.length_cons, List.map_cons, List.sum_cons]
      omega
  rw [headingCount, linesOf_outsideViews u schema tables hnames, List.countP_append,
    List.countP_cons_of_neg (by simp [isHeading]), List.countP_cons_of_neg (by simp [isHeading]),
    List.countP_cons_of_pos (by simp [isHeading]), List.countP_append, hbullets, hsections,
    headingCount]
  omega

/-- The bullets of the table list are those of the tables. -/
lemma bullets_outsideViews
    (htitle : ∀ line ∈ linesOf (schema ++ " "), isHeading line = false)
    (hnames : ∀ t ∈ tables, OneLine t.tableName ∧ OneLine (u.toLowercase t.tableName)) :
    bullets (linesOf (outsideViews u schema tables)) = tables.map (bullet u) := by
  have hskip : ∀ line ∈ linesOf (schema ++ " ") ++ ["=============".toList, []],
      decide (line ≠ "## Table List".toList) = true := by
    intro line hline
    rw [decide_eq_true_eq]
    rintro rfl
    rcases List.mem_append.mp hline with hline | hline
    · exact absurd (htitle _ hline) (by simp [isHeading])
    · simp at hline
  have hlist : ∀ line ∈ bulletLines u [] tables, (!isHeading line) = true := fun line hline => by
    simp [isHeading_of_mem_bulletLines u tables (.inl rfl) hline]
  have hdoc : linesOf (outsideViews u schema tables) =
      (linesOf (schema ++ " ") ++ ["=============".toList, []]) ++ "## Table List".toList ::
        (bulletLines u [] tables ++ linesOf (tables.flatMap (outsideSection u))) := by
    simp [linesOf_outsideViews u schema tables hnames]
  have hrest : ((linesOf (tables.flatMap (outsideSection u))).takeWhile (!isHeading ·)).map
      trimStart = [] ∨ ((linesOf (tables.flatMap (outsideSection u))).takeWhile
        (!isHeading ·)).map trimStart = [[]] := by
    cases tables with
    | nil => exact .inr rfl
    | cons t tables =>
      have hheading : isHeading ("## " ++ u.toLowercase t.tableName) = true := by simp [isHeading]
      left
      rw [List.flatMap_cons,
        linesOf_outsideSection_append u (hnames t List.mem_cons_self).2, List.takeWhile_cons,
        hheading]
      rfl
  rw [bullets, hdoc, List.dropWhile_append_of_pos hskip, List.dropWhile_cons_of_neg (by simp),
    List.drop_succ_cons, List.drop_zero, List.takeWhile_append_of_pos hlist, List.map_append,
    List.filter_append, filter_bulletLines u tables (.inl rfl)]
  rcases hrest with hrest | hrest <;> rw [hrest] <;> simp

end Document

/-! ### Which documents are structured -/

section Theorem

variable (u : Unicode) (schema : Str) (tables : List TableDef)

lemma tableSection_eq (t : TableDef) :
    tableSection u t = sectionHeading u t ++ sectionText t ++ viewBody t ++ writeln " " := by
  rw [tableSection, sectionText, viewBody]
  cases htable : t.general.isTable with
  | true => simp
  | false =>
    cases hview : t.general.isView with
    | false => simp
    | true => cases hquery : t.view <;> simp [viewSection, hquery]

variable {u schema tables} in
lemma Structured.clean (h : Structured u schema tables) : Clean u schema tables := by
  have hnames := (length_linesOf_outsideViews_eq u schema tables).mp h.lines
  obtain ⟨hschema, hlinks⟩ := (linkTargets_outsideViews_eq_length u schema tables).mp h.links
  obtain ⟨next, hheadings⟩ := h.headings
  have hcount : headingCount (outsideViews u schema tables) = tables.length + 1 := by
    rw [headingCount, ← length_headings, hheadings]
    simp
  rw [headingCount_outsideViews u schema tables hnames, Nat.add_eq_left, Nat.add_eq_zero_iff,
    List.sum_eq_zero_iff] at hcount
  obtain ⟨htitle, htexts⟩ := hcount
  have hsection (t : TableDef) (ht : t ∈ tables) :=
    (linkTargets_sectionText_eq_zero t).mp (hlinks t ht).2.2
  have htext (t : TableDef) (ht : t ∈ tables) : headingCount (sectionText t) = 0 :=
    htexts _ (List.mem_map_of_mem ht)
  exact {
    title_lines := by simpa [headingCount, List.countP_eq_zero] using htitle
    title_links := hschema
    name_lines := hnames
    name_links := fun t ht => ⟨(hlinks t ht).1, (hlinks t ht).2.1⟩
    index_links := fun t ht htable => (hsection t ht htable).1
    action_lines := fun t ht => (headingCount_sectionText_eq_zero t).mp (htext t ht)
    action_links := fun t ht htable => (hsection t ht htable).2 }

variable {u schema tables} in
lemma Clean.structured (h : Clean u schema tables) : Structured u schema tables where
  bullets := bullets_outsideViews u schema tables h.title_lines h.name_lines
  headings := by
    have htexts (t : TableDef) (ht : t ∈ tables) : headingCount (sectionText t) = 0 :=
      (headingCount_sectionText_eq_zero t).mpr (h.action_lines t ht)
    have hbullets : ∀ line ∈ bulletLines u [] tables, isHeading line = false :=
      fun line hline => isHeading_of_mem_bulletLines u tables (.inl rfl) hline
    rw [linesOf_outsideViews u schema tables h.name_lines, headings_append h.title_lines, headings,
      if_neg (by simp [isHeading]), headings, if_neg (by simp [isHeading]), headings,
      if_pos (by simp [isHeading]), headings_append hbullets,
      headings_sections u tables h.name_lines htexts]
    exact ⟨_, rfl⟩
  lines := (length_linesOf_outsideViews_eq u schema tables).mpr h.name_lines
  links := by
    refine (linkTargets_outsideViews_eq_length u schema tables).mpr ⟨h.title_links, fun t ht => ?_⟩
    have hsection : linkTargets (sectionText t) = 0 := (linkTargets_sectionText_eq_zero t).mpr
      fun htable => ⟨h.index_links t ht htable, h.action_links t ht htable⟩
    exact ⟨(h.name_links t ht).1, (h.name_links t ht).2, hsection⟩

/-- Without the view bodies the document is structured exactly when the text that is written as it
is stays on its line and opens no link. -/
theorem structured_iff_clean :
    writeMarkdown u schema tables = documentHead u schema tables ++
        tables.flatMap (fun t =>
          sectionHeading u t ++ sectionText t ++ viewBody t ++ writeln " ") ∧
      (Structured u schema tables ↔ Clean u schema tables) := by
  refine ⟨?_, fun h => h.clean, fun h => h.structured⟩
  simp only [writeMarkdown, ← tableSection_eq]

end Theorem

/-- A table with a line break in its name. -/
def brokenTable : TableDef where
  tableName := "a\nb"
  general := { tableType := "BASE TABLE" }

/-- The name of the table takes two lines in its bullet and in its heading. -/
theorem not_structured_brokenTable : ¬ Structured .asciiOnly "s" [brokenTable] := by
  intro h
  have hname := (h.clean.name_lines brokenTable List.mem_cons_self).1
  have hbreak := hname '\n' (by simp [brokenTable])
  cases hbreak

end TdExport.Markdown
