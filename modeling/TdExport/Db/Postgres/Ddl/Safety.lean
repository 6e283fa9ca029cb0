import TdExport.Core.Order
import TdExport.Db.Postgres.Ddl.Ledger

/-!
# Unsafe names are refused

The two builders of a table succeed when every name they are given is safe, and only then.
-/

namespace TdExport.Postgres

open Core

/-! ### Safe names -/

/-- The name contains none of the texts that could end a statement or a comment, and no NUL. -/
def SafeName (id : Str) : Prop :=
  ∀ text ∈ ([";", "/*", "*/", "\n", "\r", "\x00"] : List Str), ¬ text <:+: id

variable {schema table id : Str} {columns : List PgDdlColumn} {cs : List PgDdlConstraint}

lemma succeeds_quotePgIdentifier : Succeeds (quotePgIdentifier id) ↔ SafeName id := by
  have hnull : "\x00".toList <:+: id ↔ '\x00' ∈ id := List.singleton_infix_iff _ _
  have hsafe : SafeName id ↔ (∀ text ∈ dangerousTexts, ¬ text <:+: id) ∧ '\x00' ∉ id := by
    rw [← hnull]
    simp [SafeName, dangerousTexts, and_assoc]
  rw [quotePgIdentifier, succeeds_bind_iff ('\x00' ∉ id), succeeds_validateIdentifier, hsafe]
  intro _ _
  by_cases h : '\x00' ∈ id
  · rw [if_pos h]
    refine iff_of_false ?_ (not_not.mpr h)
    rintro ⟨_, hs⟩
    cases hs
  · rw [if_neg h]
    exact iff_of_true ⟨_, rfl⟩ h

lemma succeeds_quoted : Succeeds (quoted id) ↔ SafeName id := by
  rw [quoted, succeeds_mapError, succeeds_quotePgIdentifier]

/-- An underscore joins safe names to a safe name. -/
lemma SafeName.append_cons {s t : Str} (hs : SafeName s) (ht : SafeName t) :
    SafeName (s ++ '_' :: t) := by
  have hplain : ∀ text ∈ ([";", "/*", "*/", "\n", "\r", "\x00"] : List Str), '_' ∉ text := by
    decide
  intro text htext
  rw [infix_append_cons_iff (hplain text htext)]
  exact not_or.mpr ⟨hs text htext, ht text htext⟩

/-- The default name of a `NOT NULL` constraint is made of safe names. -/
lemma safeName_notNullName (htable : SafeName table) (hid : SafeName id) :
    SafeName (table ++ "_" ++ id ++ "_not_null") := by
  have hlast : SafeName "not_null" := by
    unfold SafeName
    decide
  have heq : table ++ "_".toList ++ id ++ "_not_null".toList =
      table ++ '_' :: (id ++ '_' :: "not_null".toList) := by
    simp
  rw [heq]
  exact htable.append_cons (hid.append_cons hlast)

/-! ### Safe tables -/

def SafeForeignKey (fk : PgForeignKey) : Prop :=
  SafeName fk.refSchema ∧ SafeName fk.refTable ∧ ∀ col ∈ fk.refColumns, SafeName col

/-- The sequence of an identity column. -/
def identitySequence (col : PgDdlColumn) : Option PgIdentitySequence :=
  col.identity.bind PgIdentity.sequence

/-- The names of a column are safe. -/
structure SafeColumn (col : PgDdlColumn) : Prop where
  name : SafeName col.name
  sequence : ∀ seq, identitySequence col = some seq → SafeName seq.schema ∧ SafeName seq.name

/-- The names of a constraint are safe. -/
structure SafeConstraint (c : PgDdlConstraint) : Prop where
  name : SafeName c.name
  columns : ∀ col ∈ c.columns, SafeName col
  foreignKey : ∀ fk, c.foreignKey? = some fk → SafeForeignKey fk

/-- All names of a table are safe. -/
structure SafeTable (schema table : Str) (columns : List PgDdlColumn)
    (cs : List PgDdlConstraint) : Prop where
  schema : SafeName schema
  table : SafeName table
  columns : ∀ col ∈ columns, SafeColumn col
  constraints : ∀ c ∈ cs, SafeConstraint c

/-- What the catalog guarantees about the constraints that have no entry of their own. -/
structure CatalogRules (columns : List PgDdlColumn) (cs : List PgDdlConstraint) : Prop where
  /-- A `NOT NULL` constraint names one column, which exists. -/
  notNull_column : ∀ c ∈ cs, c.isNotNull = true → ∃ col ∈ columns, c.columns = [col.name]
  /-- No two name the same column. -/
  notNull_nodup : ((cs.filter PgDdlConstraint.isNotNull).map PgDdlConstraint.columns).Nodup
  /-- Only a check, a `NOT NULL` and a foreign key may be unvalidated. -/
  isNotValidCheck_of_isNotValid : ∀ c ∈ cs, c.isNotValid = true →
    c.isNotValidCheck = true ∨ c.foreignKey?.isSome = true

/-- The names in the statement of a table and its entries. -/
def SafeEntries (schema table : Str) (columns : List PgDdlColumn) (cs : List PgDdlConstraint) :
    Prop :=
  (SafeName schema ∧ SafeName table) ∧
    (∀ col ∈ columns, SafeColumn col ∧ ∀ c, columnConstraint cs col = some c → SafeName c.name) ∧
    ∀ c ∈ cs, c.isInline = true → SafeConstraint c

/-- The names in the statements behind the tables. -/
def SafeAlters (schema table : Str) (cs : List PgDdlConstraint) : Prop :=
  (SafeName schema ∧ SafeName table) ∧
    (∀ c ∈ cs, c.isNotValidCheck = true → SafeConstraint c) ∧
    ∀ c ∈ cs, c.foreignKey?.isSome = true → SafeConstraint c

/-! ### When each part succeeds -/

lemma succeeds_quoteColumnList {l : List Str} :
    Succeeds (quoteColumnList l) ↔ ∀ col ∈ l, SafeName col := by
  rw [quoteColumnList, succeeds_bind_left fun _ => succeeds_pure _, succeeds_mapM]
  simp only [succeeds_quoted]

lemma succeeds_quotedRelation :
    Succeeds (quotedRelation schema table) ↔ SafeName schema ∧ SafeName table := by
  rw [quotedRelation, succeeds_bind_iff (SafeName table), succeeds_quoted]
  intro _ _
  rw [succeeds_bind_left fun _ => succeeds_pure _, succeeds_quoted]

lemma succeeds_identityClause {col : PgDdlColumn} :
    Succeeds (identityClause col) ↔
      ∀ seq, identitySequence col = some seq → SafeName seq.schema ∧ SafeName seq.name := by
  unfold identityClause identitySequence
  cases col.identity with
  | none => simp
  | some i =>
    show Succeeds i.toSql ↔ _
    rw [PgIdentity.toSql, succeeds_bind_left fun _ => succeeds_pure _, Option.bind_some]
    cases i.sequence with
    | none => simp
    | some seq =>
      simp only [Option.elim_some, Option.some_inj, forall_eq']
      rw [PgIdentitySequence.options, succeeds_bind_iff (SafeName seq.name), succeeds_quoted]
      intro _ _
      rw [succeeds_bind_left fun _ => succeeds_pure _, succeeds_quoted]

lemma succeeds_notNullClause (htable : SafeName table) (hid : SafeName id)
    {c : PgDdlConstraint} : Succeeds (notNullClause table id c) ↔ SafeName c.name := by
  rw [notNullClause, succeeds_bind_left fun _ => succeeds_pure _, notNullName]
  split_ifs with hname
  · rw [hname]
    exact iff_of_true (succeeds_pure _) (safeName_notNullName htable hid)
  · rw [succeeds_bind_left fun _ => succeeds_pure _, succeeds_quoted]

/-- The clause of a column names its constraint when that is validated. -/
lemma succeeds_notNullText (htable : SafeName table) {col : PgDdlColumn}
    (hcol : SafeName col.name) :
    Succeeds (notNullText table cs col) ↔
      ∀ c, columnConstraint cs col = some c → SafeName c.name := by
  rw [notNullText, columnConstraint_eq]
  cases columnNotNull cs col with
  | none =>
    refine iff_of_true ?_ (by simp)
    show Succeeds (if col.isNullable = true then pure [] else pure " NOT NULL".toList)
    split_ifs <;> exact succeeds_pure _
  | some c =>
    cases hvalid : c.isNotValid with
    | true => simp [Option.filter, hvalid]
    | false => simp [Option.filter, hvalid, succeeds_notNullClause htable hcol]

lemma succeeds_columnEntry (htable : SafeName table) {col : PgDdlColumn} :
    Succeeds (columnEntry table cs col) ↔
      SafeColumn col ∧ ∀ c, columnConstraint cs col = some c → SafeName c.name := by
  rw [columnEntry, succeeds_bind_iff
    ((∀ c, columnConstraint cs col = some c → SafeName c.name) ∧
      ∀ seq, identitySequence col = some seq → SafeName seq.schema ∧ SafeName seq.name),
    succeeds_quoted]
  · constructor
    · rintro ⟨hname, hnotNull, hidentity⟩
      exact ⟨⟨hname, hidentity⟩, hnotNull⟩
    · rintro ⟨⟨hname, hidentity⟩, hnotNull⟩
      exact ⟨hname, hnotNull, hidentity⟩
  · intro quotedCol hquoted
    have hname : SafeName col.name := succeeds_quoted.mp ⟨quotedCol, hquoted⟩
    rw [succeeds_bind_iff _ fun _ _ => ?_, succeeds_notNullText htable hname]
    rw [succeeds_bind_left fun _ => succeeds_pure _, succeeds_identityClause]

lemma succeeds_constraintClause {c : PgDdlConstraint} (hfk : c.foreignKey? = none) :
    Succeeds c.constraintClause ↔ SafeConstraint c := by
  have hbody : ∀ cols, Succeeds (c.body cols) := by
    intro cols
    rw [PgDdlConstraint.body]
    split
    case h_7 fk hdefinition hkind => simp [PgDdlConstraint.foreignKey?, hkind] at hfk
    all_goals exact succeeds_pure _
  rw [PgDdlConstraint.constraintClause, succeeds_bind_iff (∀ col ∈ c.columns, SafeName col),
    succeeds_quoted]
  · constructor
    · rintro ⟨hname, hcolumns⟩
      exact ⟨hname, hcolumns, by simp [hfk]⟩
    · intro h
      exact ⟨h.name, h.columns⟩
  · intro _ _
    rw [succeeds_bind_left, succeeds_quoteColumnList]
    intro cols
    rw [succeeds_bind_left fun _ => succeeds_pure _]
    exact hbody cols

lemma succeeds_foreignKeyStatement {relation : Str} {c : PgDdlConstraint} {fk : PgForeignKey}
    (hfk : c.foreignKey? = some fk) :
    Succeeds (foreignKeyStatement relation c fk) ↔ SafeConstraint c := by
  rw [foreignKeyStatement, succeeds_bind_iff
    ((∀ col ∈ c.columns, SafeName col) ∧ SafeForeignKey fk), succeeds_quoted]
  · constructor
    · rintro ⟨hname, hcolumns, hrefColumns⟩
      refine ⟨hname, hcolumns, ?_⟩
      rintro fk' hfk'
      obtain rfl := Option.some_inj.mp (hfk.symm.trans hfk')
      exact hrefColumns
    · intro h
      exact ⟨h.name, h.columns, h.foreignKey fk hfk⟩
  · intro _ _
    rw [succeeds_bind_iff (SafeForeignKey fk), succeeds_quoteColumnList]
    intro _ _
    rw [SafeForeignKey, ← and_assoc, succeeds_bind_iff (∀ col ∈ fk.refColumns, SafeName col),
      succeeds_quotedRelation]
    intro _ _
    rw [succeeds_bind_left fun _ => succeeds_pure _, succeeds_quoteColumnList]

/-! ### When the builders succeed -/

lemma succeeds_buildTableDdl {indexDefs : List Str} {options : TableOptions} :
    Succeeds (buildTableDdl schema table columns cs indexDefs options) ↔
      SafeEntries schema table columns cs := by
  have hhead : Succeeds (tableHead schema table options) ↔ SafeName schema ∧ SafeName table := by
    rw [tableHead, succeeds_bind_iff (SafeName table), succeeds_quoted]
    intro _ _
    rw [succeeds_bind_left fun _ => succeeds_pure _, succeeds_quoted]
  rw [SafeEntries, buildTableDdl, succeeds_bind_iff
    ((∀ col ∈ columns, SafeColumn col ∧
        ∀ c, columnConstraint cs col = some c → SafeName c.name) ∧
      ∀ c ∈ cs, c.isInline = true → SafeConstraint c), hhead]
  intro head hok
  have htable : SafeName table := (hhead.mp ⟨head, hok⟩).2
  rw [succeeds_bind_iff (∀ c ∈ cs, c.isInline = true → SafeConstraint c), succeeds_mapM]
  · simp only [succeeds_columnEntry htable]
  · intro _ _
    rw [succeeds_bind_left fun _ => succeeds_pure _, succeeds_mapM]
    constructor
    · intro h c hc hinline
      have hentry := h c (mem_inlineConstraints.mpr ⟨hc, hinline⟩)
      rwa [constraintEntry, succeeds_bind_left fun _ => succeeds_pure _,
        succeeds_constraintClause (foreignKey?_of_isInline hinline)] at hentry
    · intro h c hc
      obtain ⟨hmem, hinline⟩ := mem_inlineConstraints.mp hc
      rw [constraintEntry, succeeds_bind_left fun _ => succeeds_pure _,
        succeeds_constraintClause (foreignKey?_of_isInline hinline)]
      exact h c hmem hinline

lemma succeeds_buildPgFkDdl :
    Succeeds (buildPgFkDdl schema table cs) ↔ SafeAlters schema table cs := by
  rw [SafeAlters, buildPgFkDdl, succeeds_bind_iff
    ((∀ c ∈ cs, c.isNotValidCheck = true → SafeConstraint c) ∧
      ∀ c ∈ cs, c.foreignKey?.isSome = true → SafeConstraint c), succeeds_quotedRelation]
  intro relation _
  rw [succeeds_bind_iff (∀ c ∈ cs, c.foreignKey?.isSome = true → SafeConstraint c),
    succeeds_mapM]
  · apply and_congr_left
    intro _
    simp only [List.mem_filter, and_imp]
    refine forall₃_congr fun c _ hcheck => ?_
    rw [checkStatement, succeeds_bind_left fun _ => succeeds_pure _,
      succeeds_constraintClause (foreignKey?_of_isNotValidCheck hcheck)]
  · intro _ _
    rw [succeeds_bind_left fun _ => succeeds_pure _, succeeds_mapM]
    constructor
    · intro h c hc hsome
      obtain ⟨fk, hfk⟩ := Option.isSome_iff_exists.mp hsome
      have hstatement := h (c, fk) (List.mem_filterMap.mpr ⟨c, hc, by rw [hfk]; rfl⟩)
      rwa [succeeds_foreignKeyStatement hfk] at hstatement
    · rintro h ⟨c, fk⟩ hp
      obtain ⟨d, hd, hpair⟩ := List.mem_filterMap.mp hp
      obtain ⟨fk', hfk, heq⟩ := Option.map_eq_some_iff.mp hpair
      obtain ⟨rfl, rfl⟩ := Prod.mk.inj heq
      rw [succeeds_foreignKeyStatement hfk]
      exact h d hd (by rw [hfk]; rfl)

/-- A constraint that the catalog allows is read by one of the builders. -/
lemma CatalogRules.cases (h : CatalogRules columns cs) {c : PgDdlConstraint} (hc : c ∈ cs) :
    c.isInline = true ∨ c.isNotValidCheck = true ∨ c.foreignKey?.isSome = true ∨
      isColumnConstraint c = true := by
  have hkind := h.isNotValidCheck_of_isNotValid c hc
  cases hvalid : c.isNotValid with
  | true => exact .inr ((hkind hvalid).imp_right .inl)
  | false =>
    cases hct : c.constraintType <;>
      simp [PgDdlConstraint.isInline, PgDdlConstraint.order, isColumnConstraint,
        PgDdlConstraint.isNotNull, PgDdlConstraint.foreignKey?, hct, hvalid]

/-- What the two builders ask for, taken together, is that every name is safe. -/
lemma CatalogRules.safeTable_iff (h : CatalogRules columns cs) :
    SafeEntries schema table columns cs ∧ SafeAlters schema table cs ↔
      SafeTable schema table columns cs := by
  constructor
  · rintro ⟨⟨⟨hschema, htable⟩, hcolumns, hinline⟩, -, hchecks, hforeignKeys⟩
    refine ⟨hschema, htable, fun col hcol => (hcolumns col hcol).1, fun c hc => ?_⟩
    rcases h.cases hc with hkind | hkind | hkind | hkind
    · exact hinline c hc hkind
    · exact hchecks c hc hkind
    · exact hforeignKeys c hc hkind
    · have hnotNull := (Bool.and_eq_true_iff.mp hkind).1
      obtain ⟨col, hcol, heq⟩ := h.notNull_column c hc hnotNull
      have hconstraint := (columnConstraint_eq_some_iff h.notNull_nodup).mpr ⟨hc, hkind, heq⟩
      refine ⟨(hcolumns col hcol).2 c hconstraint, ?_, ?_⟩
      · rw [heq, List.forall_mem_singleton]
        exact (hcolumns col hcol).1.name
      · intro fk hfk
        rw [PgDdlConstraint.foreignKey?, of_decide_eq_true hnotNull] at hfk
        cases hfk
  · intro hsafe
    refine ⟨⟨⟨hsafe.schema, hsafe.table⟩, fun col hcol => ⟨hsafe.columns col hcol, ?_⟩, ?_⟩,
      ⟨hsafe.schema, hsafe.table⟩, ?_, ?_⟩
    · intro c hc
      exact (hsafe.constraints c ((columnConstraint_eq_some_iff h.notNull_nodup).mp hc).1).name
    · exact fun c hc _ => hsafe.constraints c hc
    · exact fun c hc _ => hsafe.constraints c hc
    · exact fun c hc _ => hsafe.constraints c hc

/-- Both builders succeed exactly when every name is safe; and they fail only with the error that
refuses an identifier. -/
theorem builders_succeed_iff_safeTable (schema table : Str) (columns : List PgDdlColumn)
    (cs : List PgDdlConstraint) (indexDefs : List Str) (h : CatalogRules columns cs) :
    (Succeeds (buildPgDdlFromMetadata schema table columns cs indexDefs) ∧
        Succeeds (buildPgFkDdl schema table cs) ↔ SafeTable schema table columns cs) ∧
      ErrorsIn Failure.IsUnsafeIdentifier
        (buildPgDdlFromMetadata schema table columns cs indexDefs) ∧
      ErrorsIn Failure.IsUnsafeIdentifier (buildPgFkDdl schema table cs) := by
  refine ⟨?_, errorsIn_buildTableDdl _ _ _ _ _ _, errorsIn_buildPgFkDdl _ _ _⟩
  rw [buildPgDdlFromMetadata, succeeds_buildTableDdl, succeeds_buildPgFkDdl]
  exact h.safeTable_iff

theorem builders_succeed_iff_safeTable_order :
    CatalogRules orderColumns orderConstraints ∧
      (Succeeds (buildPgDdlFromMetadata "shop" "order" orderColumns orderConstraints []) ∧
          Succeeds (buildPgFkDdl "shop" "order" orderConstraints) ↔
        SafeTable "shop" "order" orderColumns orderConstraints) ∧
      ErrorsIn Failure.IsUnsafeIdentifier
        (buildPgDdlFromMetadata "shop" "order" orderColumns orderConstraints []) ∧
      ErrorsIn Failure.IsUnsafeIdentifier (buildPgFkDdl "shop" "order" orderConstraints) := by
  have hrules : CatalogRules orderColumns orderConstraints :=
    ⟨by decide +kernel, by decide +kernel, by decide +kernel⟩
  exact ⟨hrules,
    builders_succeed_iff_safeTable "shop" "order" orderColumns orderConstraints [] hrules⟩

end TdExport.Postgres
