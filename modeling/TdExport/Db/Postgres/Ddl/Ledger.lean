import TdExport.Core.Fallible
import TdExport.Db.Postgres.Ddl.Rendered

/-!
# Every constraint is rendered once

The two builders share the constraints of a table between the entries of `CREATE TABLE`, the
clauses of its columns and the `ALTER TABLE` statements. What the catalog guarantees makes this a
partition.
-/

namespace TdExport.Postgres

open Core

/-! ### The errors of the builders -/

section Errors

variable {cs : List PgDdlConstraint}

/-- The branch that the source takes to be unreachable is no refusal of an identifier. -/
lemma unreachable_not_unsafeIdentifier : ¬ Failure.unreachable.IsUnsafeIdentifier := by
  rintro ⟨reason, h⟩
  cases h

lemma errorsIn_quoted (id : Str) : ErrorsIn Failure.IsUnsafeIdentifier (quoted id) := by
  intro f hf
  have hquote : ∀ e, quotePgIdentifier id = .error e → ∃ reason, e = .unsafeIdentifier reason := by
    apply ErrorsIn.bind
    · intro e he
      rw [validateIdentifier] at he
      split_ifs at he
      cases he
      exact ⟨_, rfl⟩
    · intro _ e he
      by_cases hnull : '\x00' ∈ id
      · rw [if_pos hnull] at he
        cases he
        exact ⟨_, rfl⟩
      · rw [if_neg hnull] at he
        cases he
  rw [quoted] at hf
  cases hq : quotePgIdentifier id with
  | ok s =>
    rw [hq] at hf
    cases hf
  | error e =>
    rw [hq] at hf
    cases hf
    obtain ⟨reason, rfl⟩ := hquote e hq
    exact ⟨reason, rfl⟩

lemma errorsIn_quoteColumnList (l : List Str) :
    ErrorsIn Failure.IsUnsafeIdentifier (quoteColumnList l) :=
  (ErrorsIn.mapM fun id _ => errorsIn_quoted id).bind fun _ => .pure _

lemma errorsIn_quotedRelation (schema table : Str) :
    ErrorsIn Failure.IsUnsafeIdentifier (quotedRelation schema table) :=
  (errorsIn_quoted schema).bind fun _ => (errorsIn_quoted table).bind fun _ => .pure _

lemma errorsIn_toSql (i : PgIdentity) : ErrorsIn Failure.IsUnsafeIdentifier i.toSql := by
  refine ErrorsIn.bind ?_ fun _ => .pure _
  cases i.sequence with
  | none => exact .pure _
  | some seq => exact (errorsIn_quoted _).bind fun _ => (errorsIn_quoted _).bind fun _ => .pure _

lemma errorsIn_notNullClause (table column : Str) (c : PgDdlConstraint) :
    ErrorsIn Failure.IsUnsafeIdentifier (notNullClause table column c) := by
  refine ErrorsIn.bind ?_ fun _ => .pure _
  rw [notNullName]
  split_ifs
  · exact .pure _
  · exact (errorsIn_quoted _).bind fun _ => .pure _

lemma errorsIn_columnEntry (table : Str) (cs : List PgDdlConstraint) (col : PgDdlColumn) :
    ErrorsIn Failure.IsUnsafeIdentifier (columnEntry table cs col) := by
  have hnotNull : ErrorsIn Failure.IsUnsafeIdentifier (notNullText table cs col) := by
    rw [notNullText]
    split
    · split_ifs
      · exact .pure _
      · exact errorsIn_notNullClause _ _ _
    · split_ifs <;> exact .pure _
  have hidentity : ErrorsIn Failure.IsUnsafeIdentifier (identityClause col) := by
    rw [identityClause]
    split
    · exact errorsIn_toSql _
    · exact .pure _
  exact (errorsIn_quoted _).bind fun _ => hnotNull.bind fun _ => hidentity.bind fun _ => .pure _

/-- Only a foreign key leads to the branch. -/
lemma errorsIn_body {c : PgDdlConstraint} (h : c.foreignKey? = none) (cols : Str) :
    ErrorsIn Failure.IsUnsafeIdentifier (c.body cols) := by
  rw [PgDdlConstraint.body]
  split
  case h_7 fk hdefinition hkind => simp [PgDdlConstraint.foreignKey?, hkind] at h
  all_goals exact .pure _

lemma errorsIn_constraintClause {c : PgDdlConstraint} (h : c.foreignKey? = none) :
    ErrorsIn Failure.IsUnsafeIdentifier c.constraintClause :=
  (errorsIn_quoted _).bind fun _ => (errorsIn_quoteColumnList _).bind fun _ =>
    (errorsIn_body h _).bind fun _ => .pure _

lemma foreignKey?_of_isInline {c : PgDdlConstraint} (h : c.isInline = true) :
    c.foreignKey? = none := by
  rw [PgDdlConstraint.foreignKey?]
  split
  · rename_i fk hkind
    simp [PgDdlConstraint.isInline, PgDdlConstraint.order, hkind] at h
  · rfl

lemma foreignKey?_of_isNotValidCheck {c : PgDdlConstraint} (h : c.isNotValidCheck = true) :
    c.foreignKey? = none := by
  rw [PgDdlConstraint.foreignKey?]
  split
  · rename_i fk hkind
    simp [PgDdlConstraint.isNotValidCheck, hkind] at h
  · rfl

lemma mem_inlineConstraints {c : PgDdlConstraint} :
    c ∈ inlineConstraints cs ↔ c ∈ cs ∧ c.isInline = true := by
  rw [inlineConstraints, sortByKey, List.mem_insertionSort, List.mem_filter]

lemma errorsIn_buildTableDdl (schema table : Str) (columns : List PgDdlColumn)
    (cs : List PgDdlConstraint) (indexDefs : List Str) (options : TableOptions) :
    ErrorsIn Failure.IsUnsafeIdentifier
      (buildTableDdl schema table columns cs indexDefs options) := by
  have hhead : ErrorsIn Failure.IsUnsafeIdentifier (tableHead schema table options) :=
    (errorsIn_quoted _).bind fun _ => (errorsIn_quoted _).bind fun _ => .pure _
  have hentries : ErrorsIn Failure.IsUnsafeIdentifier
      ((inlineConstraints cs).mapM constraintEntry) := by
    apply ErrorsIn.mapM
    intro c hc
    have hfk := foreignKey?_of_isInline (mem_inlineConstraints.mp hc).2
    exact (errorsIn_constraintClause hfk).bind fun _ => .pure _
  exact hhead.bind fun _ => (ErrorsIn.mapM fun col _ => errorsIn_columnEntry table cs col).bind
    fun _ => hentries.bind fun _ => .pure _

lemma errorsIn_buildPgFkDdl (schema table : Str) (cs : List PgDdlConstraint) :
    ErrorsIn Failure.IsUnsafeIdentifier (buildPgFkDdl schema table cs) := by
  apply (errorsIn_quotedRelation _ _).bind
  intro relation
  refine ErrorsIn.bind (ErrorsIn.mapM fun c hc => ?_) fun _ =>
    ErrorsIn.bind (ErrorsIn.mapM fun p _ => ?_) fun _ => .pure _
  · have hfk := foreignKey?_of_isNotValidCheck (List.mem_filter.mp hc).2
    exact (errorsIn_constraintClause hfk).bind fun _ => .pure _
  · exact (errorsIn_quoted _).bind fun _ => (errorsIn_quoteColumnList _).bind fun _ =>
      (errorsIn_quotedRelation _ _).bind fun _ => (errorsIn_quoteColumnList _).bind fun _ => .pure _

end Errors

/-! ### The shares of the two builders -/

section Shares

variable {schema table : Str} {columns : List PgDdlColumn} {cs : List PgDdlConstraint}

/-- The validated constraints of a kind. -/
def validated (kind : PgConstraintType → Bool) (cs : List PgDdlConstraint) :
    List PgDdlConstraint :=
  cs.filter fun c => kind c.constraintType && !c.isNotValid

/-- The constraints with an entry of their own: primary key, unique, check and exclusion
constraints, each kind in the order of the list. -/
def tableConstraints (cs : List PgDdlConstraint) : List PgDdlConstraint :=
  validated (fun kind => kind matches .primaryKey) cs ++
    validated (fun kind => kind matches .unique) cs ++
    validated (fun kind => kind matches .check _) cs ++
    validated (fun kind => kind matches .exclude _) cs

/-- The validated `NOT NULL` constraint in the entry of a column. -/
def columnConstraint (cs : List PgDdlConstraint) (col : PgDdlColumn) : Option PgDdlConstraint :=
  (cs.find? fun c => c.constraintType = .notNull && c.columns == [col.name]).filter
    fun c => !c.isNotValid

/-- The constraints with an `ALTER TABLE` statement: the checks and the `NOT NULL` that are not
validated, and the foreign keys. -/
def alterConstraints (cs : List PgDdlConstraint) : List PgDdlConstraint :=
  (cs.filter fun c => (c.constraintType matches .check _ | .notNull) && c.isNotValid) ++
    cs.filter fun c => c.constraintType matches .foreignKey _

/-- What the catalog guarantees about the columns and constraints of a table. -/
structure CatalogConstraints (columns : List PgDdlColumn) (cs : List PgDdlConstraint) : Prop where
  /-- The columns have different names. -/
  columns_nodup : (columns.map PgDdlColumn.name).Nodup
  /-- Only a check, a `NOT NULL` and a foreign key may be unvalidated. -/
  notValid_kind : ∀ c ∈ cs, c.isNotValid = true →
    c.constraintType matches .check _ | .notNull | .foreignKey _
  /-- A `NOT NULL` constraint names one column, which exists. -/
  notNull_column : ∀ c ∈ cs, c.constraintType = .notNull →
    ∃ col ∈ columns, c.columns = [col.name]
  /-- No two name the same column. -/
  notNull_nodup :
    ((cs.filter fun c => c.constraintType = .notNull).map PgDdlConstraint.columns).Nodup

lemma isNotValidCheck_eq (c : PgDdlConstraint) : c.isNotValidCheck =
    ((c.constraintType matches .check _ | .notNull) && c.isNotValid) := by
  obtain ⟨_, kind, _, _⟩ := c
  cases kind <;> rfl

lemma isSome_foreignKey? (c : PgDdlConstraint) :
    c.foreignKey?.isSome = (c.constraintType matches .foreignKey _) := by
  obtain ⟨_, kind, _, _⟩ := c
  cases kind <;> rfl

lemma alterConstraints_eq (cs : List PgDdlConstraint) : alterConstraints cs =
    cs.filter PgDdlConstraint.isNotValidCheck ++ cs.filter fun c => c.foreignKey?.isSome := by
  simp only [alterConstraints, ← isNotValidCheck_eq, isSome_foreignKey?]

/-- The kind of a constraint tells its place among the entries. -/
lemma filter_order {kind : PgConstraintType → Bool} {k : ℕ}
    (hkind : ∀ c : PgDdlConstraint, kind c.constraintType = (c.order = some k : Bool)) :
    (cs.filter PgDdlConstraint.isInline).filter (fun c => c.order.getD 0 = k) =
      validated kind cs := by
  rw [List.filter_filter, validated]
  apply List.filter_congr
  intro c _
  rw [PgDdlConstraint.isInline, hkind]
  cases c.order <;> simp

lemma order_lt {c : PgDdlConstraint} {k : ℕ} (h : c.order = some k) : k < 4 := by
  rw [PgDdlConstraint.order] at h
  split at h <;> cases h <;> decide

/-- The stable sort by kind lists the kinds one after the other. -/
lemma inlineConstraints_eq (cs : List PgDdlConstraint) :
    inlineConstraints cs = tableConstraints cs := by
  have hkey : ∀ c ∈ cs.filter PgDdlConstraint.isInline, c.order.getD 0 < 4 := by
    intro c hc
    have hsome := (Bool.and_eq_true_iff.mp (List.mem_filter.mp hc).2).1
    obtain ⟨k, hk⟩ := Option.isSome_iff_exists.mp hsome
    rw [hk]
    exact order_lt hk
  have hkinds : ∀ c : PgDdlConstraint,
      (c.constraintType matches .primaryKey) = (c.order = some 0 : Bool) ∧
      (c.constraintType matches .unique) = (c.order = some 1 : Bool) ∧
      (c.constraintType matches .check _) = (c.order = some 2 : Bool) ∧
      (c.constraintType matches .exclude _) = (c.order = some 3 : Bool) := by
    intro c
    rw [PgDdlConstraint.order]
    cases c.constraintType <;> simp
  rw [inlineConstraints, sortByKey_eq_byKey hkey, byKey, tableConstraints,
    ← filter_order fun c => (hkinds c).1, ← filter_order fun c => (hkinds c).2.1,
    ← filter_order fun c => (hkinds c).2.2.1, ← filter_order fun c => (hkinds c).2.2.2]
  simp [List.range_succ]

/-- A validated `NOT NULL` constraint. -/
def isColumnConstraint (c : PgDdlConstraint) : Bool := c.isNotNull && !c.isNotValid

lemma tableConstraints_perm (cs : List PgDdlConstraint) :
    (tableConstraints cs).Perm (cs.filter PgDdlConstraint.isInline) := by
  rw [← inlineConstraints_eq]
  exact List.perm_insertionSort _ _

lemma count_filter_eq (p : PgDdlConstraint → Bool) (c : PgDdlConstraint)
    (cs : List PgDdlConstraint) : (cs.filter p).count c = if p c then cs.count c else 0 := by
  by_cases hp : p c = true
  · rw [List.count_filter hp, if_pos hp]
  · rw [if_neg hp, List.count_eq_zero]
    exact fun hc => hp (List.mem_filter.mp hc).2

/-- Each constraint that the catalog allows is in one of the shares, by its kind and validity. -/
lemma perm_shares (h : CatalogConstraints columns cs) :
    cs.Perm (cs.filter PgDdlConstraint.isInline ++ cs.filter isColumnConstraint ++
      alterConstraints cs) := by
  rw [List.perm_iff_count]
  intro c
  simp only [alterConstraints, List.count_append, count_filter_eq]
  by_cases hc : c ∈ cs
  · have hkind := h.notValid_kind c hc
    by_cases hnv : c.isNotValid = true <;> cases hct : c.constraintType <;>
      simp_all [PgDdlConstraint.isInline, PgDdlConstraint.order, isColumnConstraint,
        PgDdlConstraint.isNotNull]
  · simp [List.count_eq_zero_of_not_mem hc]

lemma columnNotNull_eq_some {col : PgDdlColumn} {c : PgDdlConstraint}
    (h : columnNotNull cs col = some c) :
    c ∈ cs ∧ c.isNotNull = true ∧ c.columns = [col.name] := by
  have hp := List.find?_some h
  rw [Bool.and_eq_true, beq_iff_eq] at hp
  exact ⟨List.mem_of_find?_eq_some h, hp⟩

/-- The `NOT NULL` constraint of a column is found, as no other names the column. -/
lemma columnNotNull_of_mem
    (hnodup : ((cs.filter PgDdlConstraint.isNotNull).map PgDdlConstraint.columns).Nodup)
    {col : PgDdlColumn} {c : PgDdlConstraint} (hc : c ∈ cs) (hnotNull : c.isNotNull = true)
    (hcolumns : c.columns = [col.name]) : columnNotNull cs col = some c := by
  cases hfind : columnNotNull cs col with
  | none =>
    have hnot := List.find?_eq_none.mp hfind c hc
    simp [hnotNull, hcolumns] at hnot
  | some d =>
    obtain ⟨hd, hdNotNull, hdColumns⟩ := columnNotNull_eq_some hfind
    have heq := List.inj_on_of_nodup_map hnodup (List.mem_filter.mpr ⟨hd, hdNotNull⟩)
      (List.mem_filter.mpr ⟨hc, hnotNull⟩) (hdColumns.trans hcolumns.symm)
    rw [heq]

lemma columnConstraint_eq (cs : List PgDdlConstraint) (col : PgDdlColumn) :
    columnConstraint cs col = (columnNotNull cs col).filter fun c => !c.isNotValid := rfl

lemma columnConstraint_eq_some_iff
    (hnodup : ((cs.filter PgDdlConstraint.isNotNull).map PgDdlConstraint.columns).Nodup)
    {col : PgDdlColumn} {c : PgDdlConstraint} :
    columnConstraint cs col = some c ↔
      c ∈ cs ∧ isColumnConstraint c = true ∧ c.columns = [col.name] := by
  rw [columnConstraint_eq, Option.filter_eq_some_iff, isColumnConstraint, Bool.and_eq_true]
  constructor
  · rintro ⟨hfind, hvalid⟩
    obtain ⟨hc, hnotNull, hcolumns⟩ := columnNotNull_eq_some hfind
    exact ⟨hc, ⟨hnotNull, hvalid⟩, hcolumns⟩
  · rintro ⟨hc, ⟨hnotNull, hvalid⟩, hcolumns⟩
    exact ⟨columnNotNull_of_mem hnodup hc hnotNull hcolumns, hvalid⟩

/-- The clauses of the columns are the validated `NOT NULL` constraints. -/
lemma columnConstraints_perm (h : CatalogConstraints columns cs) :
    (columns.filterMap (columnConstraint cs)).Perm (cs.filter isColumnConstraint) := by
  have hright : (cs.filter isColumnConstraint).Nodup := by
    have hsub : (cs.filter isColumnConstraint).Sublist (cs.filter PgDdlConstraint.isNotNull) := by
      apply List.monotone_filter_right _
      intro c hc
      exact (Bool.and_eq_true_iff.mp hc).1
    exact hsub.nodup (List.Nodup.of_map _ h.notNull_nodup)
  have hleft : (columns.filterMap (columnConstraint cs)).Nodup := by
    refine List.Pairwise.filterMap _ ?_ (List.pairwise_map.mp h.columns_nodup)
    intro col col' hname c hc d hd hcd
    obtain ⟨-, -, hcolumns⟩ := (columnConstraint_eq_some_iff h.notNull_nodup).mp hc
    obtain ⟨-, -, hcolumns'⟩ := (columnConstraint_eq_some_iff h.notNull_nodup).mp hd
    rw [← hcd, hcolumns] at hcolumns'
    exact hname (List.cons.inj hcolumns').1
  apply (List.perm_ext_iff_of_nodup hleft hright).mpr
  intro c
  rw [List.mem_filterMap, List.mem_filter]
  constructor
  · rintro ⟨col, -, hcol⟩
    obtain ⟨hc, hcolumn, -⟩ := (columnConstraint_eq_some_iff h.notNull_nodup).mp hcol
    exact ⟨hc, hcolumn⟩
  · rintro ⟨hc, hcolumn⟩
    obtain ⟨col, hcol, hcolumns⟩ :=
      h.notNull_column c hc (of_decide_eq_true (Bool.and_eq_true_iff.mp hcolumn).1)
    exact ⟨col, hcol, (columnConstraint_eq_some_iff h.notNull_nodup).mpr ⟨hc, hcolumn, hcolumns⟩⟩

/-- Every constraint has one place: among the entries of the table, in the entry of a column, or
in an `ALTER TABLE` statement. -/
lemma perm_places (h : CatalogConstraints columns cs) :
    cs.Perm (tableConstraints cs ++ columns.filterMap (columnConstraint cs) ++
      alterConstraints cs) :=
  (perm_shares h).trans
    (((tableConstraints_perm cs).symm.append (columnConstraints_perm h).symm).append_right _)

/-- Parting the constraints keeps what is to be altered. -/
lemma alterConstraints_partition (schema : Str) (cs : List PgDdlConstraint) :
    (alterConstraints (partitionConstraints schema cs).2 ++
      alterConstraints (partitionConstraints schema cs).1).Perm (alterConstraints cs) := by
  rw [partitionConstraints, List.partition_eq_filter_filter, List.perm_iff_count]
  intro c
  simp only [alterConstraints, List.count_append, count_filter_eq, Function.comp_apply]
  by_cases hcross : isCrossSchema schema c = true
  · simp [hcross]
  · rw [Bool.not_eq_true] at hcross
    simp [hcross]

end Shares

/-! ### What is written -/

section Written

variable {schema table : Str} {columns : List PgDdlColumn} {cs : List PgDdlConstraint}
  {indexDefs : List Str} {options : TableOptions}

/-- What the entry of a column says about `NOT NULL`: the clause of its constraint if it has a
validated one; without any it is told by the column. -/
def columnNotNullText (table : Str) (cs : List PgDdlConstraint) (col : PgDdlColumn) : Str :=
  match columnConstraint cs col with
  | some c => notNullConstraintText table col.name c
  | none =>
    if col.isNullable = false ∧ ∀ c ∈ cs, ¬(c.constraintType = .notNull ∧ c.columns = [col.name])
    then " NOT NULL" else []

/-- The entries of a table: one for each column and one for each of `entries`. -/
def tableEntries (table : Str) (columns : List PgDdlColumn) (cs entries : List PgDdlConstraint) :
    List Str :=
  columns.map (fun col => columnText col (columnNotNullText table cs col)) ++
    entries.map fun c => "    " ++ constraintText c

lemma notNullText_eq_ok {col : PgDdlColumn} {text : Str} (h : notNullText table cs col = .ok text) :
    text = columnNotNullText table cs col := by
  have hfind : columnNotNull cs col = none ↔
      ∀ c ∈ cs, ¬(c.constraintType = .notNull ∧ c.columns = [col.name]) := by
    rw [columnNotNull, List.find?_eq_none]
    simp [PgDdlConstraint.isNotNull]
  rw [notNullText] at h
  rw [columnNotNullText, columnConstraint_eq]
  cases hc : columnNotNull cs col with
  | none =>
    rw [hc] at h
    have hnone := hfind.mp hc
    cases hnull : col.isNullable <;> rw [hnull] at h
    · rw [Option.filter_none, if_pos ⟨rfl, hnone⟩]
      exact (Except.ok.inj h).symm
    · rw [Option.filter_none, if_neg (by simp)]
      exact (Except.ok.inj h).symm
  | some c =>
    rw [hc] at h
    cases hvalid : c.isNotValid
    · rw [Option.filter_some_pos (by simp [hvalid])]
      exact notNullClause_eq_ok (by simpa [hvalid] using h)
    · have hsome : ¬∀ c ∈ cs, ¬(c.constraintType = .notNull ∧ c.columns = [col.name]) := by
        rw [← hfind, hc]
        simp
      rw [Option.filter_some_neg (by simp [hvalid]), if_neg fun hboth => hsome hboth.2]
      simp only [hvalid, if_true] at h
      exact (Except.ok.inj h).symm

lemma columnEntry_eq_ok {col : PgDdlColumn} {text : Str} (h : columnEntry table cs col = .ok text) :
    text = columnText col (columnNotNullText table cs col) := by
  simp only [columnEntry, bind_eq_ok] at h
  obtain ⟨quotedCol, hquoted, notNull, hnotNull, identity, hidentity, htext⟩ := h
  rw [← Except.ok.inj htext, quoted_eq_ok hquoted, notNullText_eq_ok hnotNull,
    identityClause_eq_ok hidentity, columnDef_eq]

lemma tableHead_eq_ok {text : Str} (h : tableHead schema table options = .ok text) :
    text = (if options.foreign.isSome then "CREATE FOREIGN TABLE".toList else "CREATE TABLE") ++
      " " ++ relationText schema table ++ " (\n" := by
  simp only [tableHead, bind_eq_ok] at h
  obtain ⟨quotedSchema, hschema, quotedTable, htable, htext⟩ := h
  rw [← Except.ok.inj htext, quoted_eq_ok hschema, quoted_eq_ok htable, relationText]
  simp only [List.append_assoc]

lemma buildTableDdl_eq_ok {create : Str}
    (h : buildTableDdl schema table columns cs indexDefs options = .ok create) :
    create = tableText schema table options (tableEntries table columns cs (tableConstraints cs))
      indexDefs := by
  simp only [buildTableDdl, bind_eq_ok, inlineConstraints_eq] at h
  obtain ⟨head, hhead, columnEntries, hcolumns, constraintEntries, hentries, hcreate⟩ := h
  rw [← Except.ok.inj hcreate, eq_map_of_mapM_eq_ok (fun _ _ => columnEntry_eq_ok) hcolumns,
    eq_map_of_mapM_eq_ok (fun _ _ => constraintEntry_eq_ok) hentries, tableHead_eq_ok hhead]
  rfl

lemma map_alterText_foreignKeys {statements : List Str}
    (h : (cs.filterMap fun c => c.foreignKey?.map fun fk => (c, fk)).mapM
      (fun p => foreignKeyStatement (relationText schema table) p.1 p.2) = .ok statements) :
    statements = (cs.filter fun c => c.foreignKey?.isSome).map (alterText schema table) := by
  induction cs generalizing statements with
  | nil => exact (Except.ok.inj h).symm
  | cons c cs ih =>
    cases hfk : c.foreignKey? with
    | none =>
      rw [List.filterMap_cons_none (by rw [hfk]; rfl)] at h
      rw [List.filter_cons_of_neg (by simp [hfk]), ih h]
    | some fk =>
      rw [List.filterMap_cons_some (by rw [hfk]; rfl), mapM_cons_eq_ok] at h
      obtain ⟨statement, rest, hstatement, hrest, rfl⟩ := h
      rw [List.filter_cons_of_pos (by simp [hfk]), List.map_cons, ← ih hrest,
        foreignKeyStatement_eq_ok hfk hstatement]

/-- The statements behind the tables are those of the constraints to be altered. -/
lemma buildPgFkDdl_eq_ok {statements : List Str}
    (h : buildPgFkDdl schema table cs = .ok statements) :
    statements = (alterConstraints cs).map (alterText schema table) := by
  simp only [buildPgFkDdl, bind_eq_ok] at h
  obtain ⟨relation, hrelation, checks, hchecks, foreignKeys, hforeignKeys, hstatements⟩ := h
  obtain rfl := quotedRelation_eq_ok hrelation
  rw [← Except.ok.inj hstatements, eq_map_of_mapM_eq_ok (fun _ _ => checkStatement_eq_ok) hchecks,
    map_alterText_foreignKeys hforeignKeys, alterConstraints_eq, List.map_append]

/-- There are statements when each constraint has its own. -/
lemma exists_buildPgFkDdl_iff :
    (∃ statements, buildPgFkDdl schema table cs = .ok statements) ↔
      ∃ relation, quotedRelation schema table = .ok relation ∧
        (∀ c ∈ cs, c.isNotValidCheck = true → ∃ s, checkStatement relation c = .ok s) ∧
        ∀ c ∈ cs, ∀ fk, c.foreignKey? = some fk →
          ∃ s, foreignKeyStatement relation c fk = .ok s := by
  simp only [buildPgFkDdl, bind_eq_ok]
  constructor
  · rintro ⟨statements, relation, hrelation, checks, hchecks, foreignKeys, hforeignKeys, -⟩
    have hcheck := exists_mapM_eq_ok_iff.mp ⟨checks, hchecks⟩
    have hforeignKey := exists_mapM_eq_ok_iff.mp ⟨foreignKeys, hforeignKeys⟩
    refine ⟨relation, hrelation, fun c hc hkind => hcheck c (List.mem_filter.mpr ⟨hc, hkind⟩),
      fun c hc fk hfk => hforeignKey (c, fk) (List.mem_filterMap.mpr ⟨c, hc, ?_⟩)⟩
    rw [hfk]
    rfl
  · rintro ⟨relation, hrelation, hcheck, hforeignKey⟩
    obtain ⟨checks, hchecks⟩ := exists_mapM_eq_ok_iff.mpr fun c
      (hc : c ∈ cs.filter PgDdlConstraint.isNotValidCheck) =>
        hcheck c (List.mem_filter.mp hc).1 (List.mem_filter.mp hc).2
    obtain ⟨foreignKeys, hforeignKeys⟩ := exists_mapM_eq_ok_iff (f := fun p =>
        foreignKeyStatement relation p.1 p.2)
      (l := cs.filterMap fun c => c.foreignKey?.map fun fk => (c, fk)) |>.mpr fun p hp => by
        obtain ⟨c, hc, hp⟩ := List.mem_filterMap.mp hp
        obtain ⟨fk, hfk, rfl⟩ := Option.map_eq_some_iff.mp hp
        exact hforeignKey c hc fk hfk
    exact ⟨_, relation, hrelation, checks, hchecks, foreignKeys, hforeignKeys, rfl⟩

/-- Some of the statements can be made when all can. -/
lemma exists_buildPgFkDdl_of_subset {cs' : List PgDdlConstraint} {statements : List Str}
    (h : buildPgFkDdl schema table cs = .ok statements) (hsub : cs' ⊆ cs) :
    ∃ statements', buildPgFkDdl schema table cs' = .ok statements' := by
  obtain ⟨relation, hrelation, hcheck, hforeignKey⟩ := exists_buildPgFkDdl_iff.mp ⟨_, h⟩
  exact exists_buildPgFkDdl_iff.mpr ⟨relation, hrelation, fun c hc => hcheck c (hsub hc),
    fun c hc => hforeignKey c (hsub hc)⟩

lemma partitionConstraints_subset (schema : Str) (cs : List PgDdlConstraint) :
    (partitionConstraints schema cs).1 ⊆ cs ∧ (partitionConstraints schema cs).2 ⊆ cs := by
  rw [partitionConstraints, List.partition_eq_filter_filter]
  exact ⟨List.filter_subset_self _, List.filter_subset_self _⟩

/-- Every constraint is written once: as an entry of the table, in the entry of its column, or as
a statement behind the tables, also when the foreign keys to other schemas are parted off. -/
theorem constraints_rendered_once (schema table : Str) (columns : List PgDdlColumn)
    (cs : List PgDdlConstraint) (indexDefs : List Str) (options : TableOptions) :
    (Avoids .unreachable (buildTableDdl schema table columns cs indexDefs options) ∧
      ∀ cs', Avoids .unreachable (buildPgFkDdl schema table cs')) ∧
    ∀ create statements, CatalogConstraints columns cs →
      buildTableDdl schema table columns cs indexDefs options = .ok create →
      buildPgFkDdl schema table cs = .ok statements →
      (create = tableText schema table options
          (tableEntries table columns cs (tableConstraints cs)) indexDefs ∧
        statements = (alterConstraints cs).map (alterText schema table) ∧
        cs.Perm (tableConstraints cs ++ columns.filterMap (columnConstraint cs) ++
          alterConstraints cs)) ∧
      ∃ crossFks rest, partitionConstraints schema cs = (crossFks, rest) ∧
        buildPgFkDdl schema table rest =
          .ok ((alterConstraints rest).map (alterText schema table)) ∧
        buildPgFkDdl schema table crossFks =
          .ok ((alterConstraints crossFks).map (alterText schema table)) ∧
        cs.Perm (tableConstraints cs ++ columns.filterMap (columnConstraint cs) ++
          (alterConstraints rest ++ alterConstraints crossFks)) := by
  refine ⟨⟨?_, fun cs' => ?_⟩, ?_⟩
  · exact (errorsIn_buildTableDdl _ _ _ _ _ _).avoids unreachable_not_unsafeIdentifier
  · exact (errorsIn_buildPgFkDdl _ _ _).avoids unreachable_not_unsafeIdentifier
  intro create statements hcatalog hcreate hstatements
  have hplaces := perm_places hcatalog
  have hwritten {cs' : List PgDdlConstraint} (hsub : cs' ⊆ cs) : buildPgFkDdl schema table cs' =
      .ok ((alterConstraints cs').map (alterText schema table)) := by
    obtain ⟨statements', h⟩ := exists_buildPgFkDdl_of_subset hstatements hsub
    rw [h, buildPgFkDdl_eq_ok h]
  obtain ⟨hcross, hrest⟩ := partitionConstraints_subset schema cs
  refine ⟨⟨buildTableDdl_eq_ok hcreate, buildPgFkDdl_eq_ok hstatements, hplaces⟩,
    _, _, rfl, hwritten hrest, hwritten hcross, ?_⟩
  exact hplaces.trans ((alterConstraints_partition schema cs).symm.append_left _)

end Written

/-! ### A table with a constraint of each kind -/

def orderColumns : List PgDdlColumn :=
  [{ name := "id", dataType := "integer", isNullable := false },
    { name := "item", dataType := "text", isNullable := true }]

def orderConstraints : List PgDdlConstraint :=
  [{ name := "item_known", constraintType := .foreignKey {
      refSchema := "stock", refTable := "item", refColumns := ["name"], onDelete := "CASCADE",
      onUpdate := "NO ACTION" }, columns := ["item"], definition := none },
    { name := "item_set", constraintType := .check "(item <> '')", columns := ["item"],
      definition := some "CHECK ((item <> '')) NOT VALID".toList },
    { name := "item_once", constraintType := .unique, columns := ["item"], definition := none },
    { name := "order_pkey", constraintType := .primaryKey, columns := ["id"], definition := none },
    { name := "order_id_not_null", constraintType := .notNull, columns := ["id"],
      definition := some "NOT NULL id".toList },
    { name := "item_shown", constraintType := .notNull, columns := ["item"],
      definition := some "NOT NULL item NOT VALID".toList }]

theorem constraints_rendered_once_order :
    orderConstraints.Perm (tableConstraints orderConstraints ++
      orderColumns.filterMap (columnConstraint orderConstraints) ++
      (alterConstraints (partitionConstraints "shop" orderConstraints).2 ++
        alterConstraints (partitionConstraints "shop" orderConstraints).1)) := by
  have hcatalog : CatalogConstraints orderColumns orderConstraints :=
    ⟨by decide +kernel, by decide +kernel, by decide +kernel, by decide +kernel⟩
  have hcreate :
      (buildTableDdl "shop" "order" orderColumns orderConstraints [] {}).isOk = true := by
    decide +kernel
  have hstatements : (buildPgFkDdl "shop" "order" orderConstraints).isOk = true := by
    decide +kernel
  obtain ⟨create, hcreate⟩ := exists_eq_ok_of_isOk hcreate
  obtain ⟨statements, hstatements⟩ := exists_eq_ok_of_isOk hstatements
  obtain ⟨-, crossFks, rest, hpartition, -, -, hperm⟩ :=
    (constraints_rendered_once "shop" "order" orderColumns orderConstraints [] {}).2 _ _
      hcatalog hcreate hstatements
  rw [hpartition]
  exact hperm

end TdExport.Postgres
