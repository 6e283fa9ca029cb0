import TdExport.Db.Postgres.Fetch.Rows

/-!
# What is fetched for the parts of a table

Comments, options, sequences, constraints and columns: each part is made exactly when its names are
safe, and is what the catalog asks for.
-/

namespace TdExport.Postgres

open Core Sql Answer

variable {σ : Type}

/-! ### Statements with safe names -/

section Statements

lemma okIff_quotePgIdentifier (id : Str) :
    OkIff (quotePgIdentifier id) (SafeName id) (quotedBy '"' id) :=
  .of_succeeds succeeds_quotePgIdentifier fun _ => quotePgIdentifier_eq_ok

lemma okIff_quoted (id : Str) : OkIff (quoted id) (SafeName id) (quotedBy '"' id) :=
  (okIff_quotePgIdentifier id).mapError _

lemma okIff_quotedRelation (schema table : Str) : OkIff (quotedRelation schema table)
    (SafeName schema ∧ SafeName table) (relationText schema table) :=
  .of_succeeds succeeds_quotedRelation fun _ => quotedRelation_eq_ok

lemma okIff_setDefaultStatement (schema table column default : Str) :
    OkIff (setDefaultStatement (relationText schema table) column default) (SafeName column)
      (setDefaultText schema table column default) :=
  (okIff_quoted column).map _

lemma okIff_optionsClause (options : List Str) :
    OkIff (optionsClause options) (SafeOptions options)
      ((clauseTokens options).flatMap PgToken.text) := by
  refine .of_succeeds ?_ fun _ => optionsClause_eq_ok
  rw [optionsClause, succeeds_bind_left fun _ => succeeds_pure _, succeeds_mapM]
  refine forall₂_congr fun option _ => ?_
  rw [optionText, succeeds_bind_left fun _ => succeeds_pure _, splitOption_eq,
    succeeds_quotePgIdentifier]

lemma okIff_buildForeignSuffix (f : ForeignServer) : OkIff (buildForeignSuffix f.server f.options)
    (SafeName f.server ∧ SafeOptions f.options) f.text := by
  refine .of_succeeds ?_ fun _ => buildForeignSuffix_eq_ok
  rw [buildForeignSuffix, succeeds_bind_iff (SafeOptions f.options), succeeds_quotePgIdentifier]
  intro server _
  split_ifs with hoptions
  · rw [hoptions]
    exact iff_of_true (succeeds_pure _) (by simp [SafeOptions])
  · rw [succeeds_bind_left fun _ => succeeds_pure _]
    exact (okIff_optionsClause f.options).succeeds_iff

lemma okIff_columnOptionsStatement (schema table : Str) (c : Str × List Str) :
    OkIff (columnOptionsStatement (relationText schema table) c.1 c.2)
      (SafeName c.1 ∧ SafeOptions c.2) (columnOptionsText schema table c) :=
  (okIff_quoted c.1).bind (((okIff_optionsClause c.2).mapError Failure.error).map _)

lemma okIff_ownershipStatement (schema table : Str) (s : OwnedSequence) :
    OkIff (ownershipStatement (relationText schema table) s.schema s.name s.column) s.Safe
      (ownershipText schema table s) := by
  have htext : ownershipText schema table s = "ALTER SEQUENCE ".toList ++ quotedBy '"' s.schema ++
      ".".toList ++ quotedBy '"' s.name ++ " OWNED BY ".toList ++ relationText schema table ++
      ".".toList ++ quotedBy '"' s.column ++ ";".toList := by
    unfold ownershipText relationText
    simp only [List.append_assoc]
  rw [ownershipStatement, htext]
  exact (okIff_quoted s.schema).bind ((okIff_quoted s.name).bind ((okIff_quoted s.column).map _))

lemma okIff_buildCommentDdl (schema table : Str) (c : CatalogComment) :
    OkIff (buildCommentDdl schema table c.relkind c.column c.comment)
      ((SafeName schema ∧ SafeName table) ∧ c.Safe) (catalogCommentText schema table c) := by
  refine .of_succeeds ?_ fun _ => buildCommentDdl_eq_ok
  have htarget : Succeeds (qualified schema table) ↔ SafeName schema ∧ SafeName table := by
    rw [qualified, succeeds_bind_iff (SafeName table), succeeds_quotePgIdentifier]
    intro _ _
    rw [succeeds_bind_left fun _ => succeeds_pure _, succeeds_quotePgIdentifier]
  rw [buildCommentDdl, succeeds_bind_iff c.Safe, htarget]
  intro target _
  rw [succeeds_bind_left fun _ => succeeds_pure _, CatalogComment.Safe]
  cases c.column with
  | none => exact iff_of_true (succeeds_pure _) (by simp)
  | some column =>
    rw [commentObject, succeeds_bind_left fun _ => succeeds_pure _, succeeds_quotePgIdentifier]
    simp

end Statements

/-! ### What is fetched -/

section Fetched

variable {server : PgRelations σ} {schema table : Str} {α ρ : Type} {p : Prop} {v : α}

lemma okIff_build {x : Except Failure α} (h : OkIff x p v) :
    OkIff (build x : Answer (PgError σ) α).result p v :=
  h.mapError _

lemma okIff_buildApp {x : Except AppError α} (h : OkIff x p v) :
    OkIff (buildApp x : Answer (PgError σ) α).result p v :=
  okIff_build (h.mapError _)

/-- The rows of a query, each with its own reader. -/
lemma okIff_queryRows {β : Type} {answer : Except σ (List ρ)} {holds : ρ → α → Prop} {l : List α}
    {read : ρ → Answer (PgError σ) β} {P : α → Prop} {g : α → β} (h : Answers answer holds l)
    (hread : ∀ row a, holds row a → OkIff (read row).result (P a) (g a)) :
    OkIff (query schema table answer >>= fun rows => rows.mapM read).result (∀ a ∈ l, P a)
      (l.map g) := by
  obtain ⟨rows, hrows, hholds⟩ := h
  rw [result_bind, result_query hrows, ok_bind, result_mapM]
  exact .mapM hholds hread

/-- The rows of a query, each with a statement about the relation. -/
lemma okIff_queryTarget {β : Type} {answer : Except σ (List ρ)} {holds : ρ → α → Prop} {l : List α}
    {read : Str → ρ → Answer (PgError σ) β} {P : α → Prop} {g : α → β} (h : Answers answer holds l)
    (hread : ∀ row a, holds row a → OkIff (read (relationText schema table) row).result (P a)
      (g a)) :
    OkIff (query schema table answer >>= fun rows =>
        build (quotedRelation schema table) >>= fun target => rows.mapM (read target)).result
      ((SafeName schema ∧ SafeName table) ∧ ∀ a ∈ l, P a) (l.map g) := by
  obtain ⟨rows, hrows, hholds⟩ := h
  rw [result_bind, result_query hrows, ok_bind, result_bind]
  refine (okIff_build (okIff_quotedRelation schema table)).bind ?_
  rw [result_mapM]
  exact .mapM hholds hread

lemma okIff_fetchCommentDdl {comments : List CatalogComment}
    (h : Answers (server.comments schema table) CommentRow.Holds comments) :
    OkIff (fetchCommentDdl server schema table).result
      (∀ c ∈ comments, (SafeName schema ∧ SafeName table) ∧ c.Safe)
      (comments.map (catalogCommentText schema table)) := by
  refine okIff_queryRows h fun row c hc => ?_
  simp only [result_bind, result_tryGetOrWarn, ok_bind, hc.relkind, hc.column, hc.comment]
  exact okIff_buildApp (okIff_buildCommentDdl schema table c)

lemma okIff_fetchColumnOptionsDdl {options : List (Str × List Str)}
    (h : Answers (server.columnOptions schema table) ColumnOptionsRow.Holds options) :
    OkIff (fetchColumnOptionsDdl server schema table).result
      ((SafeName schema ∧ SafeName table) ∧
        SafeColumnOptions options)
      (options.map (columnOptionsText schema table)) := by
  refine okIff_queryTarget h fun row c hc => ?_
  simp only [result_bind, result_tryGetOrWarn, ok_bind, hc.column, hc.options]
  exact okIff_build (okIff_columnOptionsStatement schema table c)

lemma okIff_fetchForeignOptions {foreign : Option ForeignServer} {foreignServer : Cell (Option Str)}
    {foreignOptions : Cell (Option (List Str))}
    (h : HoldsForeign server (schema, table) foreignServer foreignOptions foreign) :
    OkIff (fetchForeignOptions server schema table (foreign.map ForeignServer.text)).result
      (∀ f ∈ foreign, (SafeName schema ∧ SafeName table) ∧
        SafeColumnOptions f.columnOptions)
      (columnOptionsTexts schema table foreign) := by
  cases foreign with
  | none => exact (OkIff.ok []).congr (by simp)
  | some f => exact (okIff_fetchColumnOptionsDdl h.2.2).congr (by simp)

lemma okIff_readForeign (schema table : Str) {name : Str × Str} {foreign : Option ForeignServer}
    {foreignServer : Cell (Option Str)} {foreignOptions : Cell (Option (List Str))}
    (h : HoldsForeign server name foreignServer foreignOptions foreign) :
    OkIff (readForeign schema table foreignServer.read foreignOptions :
        Answer (PgError σ) _).result
      (∀ f ∈ foreign, SafeName f.server ∧ SafeOptions f.options)
      (foreign.map ForeignServer.text) := by
  cases foreign with
  | none =>
    rw [h]
    exact (OkIff.ok none).congr (by simp)
  | some f =>
    obtain ⟨hserver, hoptions, -⟩ := h
    rw [hserver, readForeign, result_bind, result_tryGetOrWarn, ok_bind, hoptions, map_eq_pure_bind,
      result_bind]
    exact ((okIff_buildApp (okIff_buildForeignSuffix f)).map some).congr (by simp)

lemma okIff_fetchSequenceOwnership {sequences : List OwnedSequence}
    (h : Answers (server.sequenceOwnership schema table) OwnershipRow.Holds sequences) :
    OkIff (fetchSequenceOwnership server schema table).result
      ((SafeName schema ∧ SafeName table) ∧ ∀ s ∈ sequences, s.Safe)
      (sequences.map (ownershipText schema table)) := by
  refine okIff_queryTarget h fun row s hs => ?_
  simp only [result_bind, result_tryGetOrWarn, ok_bind, hs.schema, hs.name, hs.column]
  exact okIff_build (okIff_ownershipStatement schema table s)

/-! ### Constraints -/

lemma result_readConstraint {row : ConstraintRow} {c : PgDdlConstraint} (h : row.Holds c) :
    (readConstraint schema table row : Answer (PgError σ) _).result = .ok (some c) := by
  obtain ⟨name, constraintType, columns, definition⟩ := c
  have hname := h.name
  have hcolumns := h.columns
  have hdefinition := h.definition
  have hkind : (readConstraintType schema table row row.contype.read row.condef.read
      row.refSchema.read row.refTable.read (row.refColNames.read.getD []) :
        Answer (PgError σ) _).result = .ok (some constraintType) := by
    have hkind := h.kind
    cases constraintType with
    | foreignKey fk =>
      obtain ⟨hcontype, hschema, htable, hrefColumns, hdelete, hupdate, hmatch, hdeferrable⟩ :=
        hkind
      rw [readConstraintType, hcontype, if_neg (by decide), if_neg (by decide), if_pos rfl]
      simp only [result_bind, result_tryGetOrWarn, ok_bind, result_pure, hschema, htable,
        hrefColumns, hdelete, hupdate, hmatch, hdeferrable]
    | primaryKey =>
      rw [readConstraintType, show row.contype.read = _ from hkind]
      rfl
    | unique =>
      rw [readConstraintType, show row.contype.read = _ from hkind]
      rfl
    | check expression =>
      rw [readConstraintType, hkind.1, hkind.2]
      rfl
    | exclude definition =>
      rw [readConstraintType, hkind.1, hkind.2]
      rfl
    | notNull =>
      rw [readConstraintType, show row.contype.read = _ from hkind]
      rfl
  simp only [readConstraint, result_bind, result_tryGetOrWarn, ok_bind, hkind, result_pure]
  simp only at hname hcolumns hdefinition
  rw [hname, hcolumns, hdefinition]
  rfl

lemma result_fetchConstraints {cs : List PgDdlConstraint}
    (h : Answers (server.constraints schema table) ConstraintRow.Holds cs) :
    (fetchConstraints server schema table).result = .ok cs := by
  obtain ⟨rows, hrows, hholds⟩ := h
  have hread : (rows.mapM (readConstraint schema table) : Answer (PgError σ) _).result =
      .ok (cs.map some) := by
    rw [result_mapM, mapM_eq_ok_iff, List.forall₂_map_right_iff]
    exact hholds.imp fun _ _ => result_readConstraint
  rw [fetchConstraints, result_bind, result_query hrows, ok_bind, result_bind, hread, ok_bind,
    List.filterMap_map]
  exact congrArg Except.ok (List.filterMap_some ..)

/-! ### Columns -/

lemma fromCatalog_eq_of_hasGenerated {kind : Str} {expression : Option Str}
    {generated : Option PgGenerated} (h : HasGenerated kind expression generated) :
    PgGenerated.fromCatalog kind expression = generated := by
  cases generated with
  | some generated =>
    cases generated with
    | stored expr =>
      rw [PgGenerated.fromCatalog, if_pos h.1, h.2]
      rfl
    | virtual expr =>
      rw [PgGenerated.fromCatalog, h.1, h.2]
      rfl
  | none =>
    rw [PgGenerated.fromCatalog]
    rcases h with ⟨hs, hv⟩ | rfl
    · rw [if_neg hs, if_neg hv]
    · split_ifs <;> rfl

lemma fromCatalog_eq_of_hasIdentity {kind : Str} {sequence : Option PgIdentitySequence}
    {identity : Option PgIdentity} (h : HasIdentity kind sequence identity) :
    PgIdentity.fromCatalog kind sequence = identity := by
  cases identity with
  | some i =>
    obtain ⟨always, _⟩ := i
    obtain ⟨rfl, rfl⟩ := h
    cases always <;> rfl
  | none => rw [PgIdentity.fromCatalog, if_neg h.1, if_neg h.2]

lemma result_readSequence {row : DdlColumnRow} {sequence : Option PgIdentitySequence}
    (h : row.HoldsSequence sequence) :
    (row.identitySeqName.read.mapM (readIdentitySequence schema table row) :
      Answer (PgError σ) _).result = .ok sequence := by
  cases sequence with
  | none =>
    rw [show row.identitySeqName.read = none from h]
    rfl
  | some seq =>
    obtain ⟨hname, hschema, hstart, hincrement, hmin, hmax, hcache, hcycle⟩ := h
    rw [hname, Option.mapM_some, map_eq_pure_bind, result_bind]
    simp only [readIdentitySequence, result_bind, result_tryGetOrWarn, ok_bind, result_pure,
      hschema, hstart, hincrement, hmin, hmax, hcache, hcycle]

/-- What is read of a column. -/
def CatalogColumn.toRead (schema table : Str) (c : CatalogColumn) : ReadColumn where
  column := c.created
  deferredDefault := c.defaultText schema table (· = schema)
  crossSchemaDefault := c.defaultText schema table (· ≠ schema)

lemma okIff_readDefault (schema table : Str) (c : CatalogColumn) :
    OkIff (readDefault schema (relationText schema table) c.column.name c.column.defaultValue
        c.after : Answer (PgError σ) _).result
      (c.column.defaultValue.isSome → c.after.isSome → SafeName c.column.name)
      (c.created.defaultValue, c.defaultText schema table (· = schema),
        c.defaultText schema table (· ≠ schema)) := by
  rw [CatalogColumn.created, CatalogColumn.defaultText, CatalogColumn.defaultText]
  cases c.column.defaultValue with
  | none =>
    simp only [Option.map_none, ite_self]
    cases c.after <;> exact (OkIff.ok _).congr (by simp)
  | some default =>
    cases c.after with
    | none => exact (OkIff.ok _).congr (by simp)
    | some seqSchema =>
      rw [readDefault, result_bind]
      have hstatement := okIff_setDefaultStatement schema table c.column.name default
      refine ((okIff_build hstatement).bind (q := True) ?_).congr (by simp)
      by_cases hschema : seqSchema = schema
      · simpa [hschema] using OkIff.ok _
      · simpa [hschema] using OkIff.ok _

lemma okIff_readColumn (schema table : Str) {row : DdlColumnRow} {c : CatalogColumn}
    (h : row.Holds c) :
    OkIff (readColumn schema table (relationText schema table) row : Answer (PgError σ) _).result
      (c.column.defaultValue.isSome → c.after.isSome → SafeName c.column.name)
      (c.toRead schema table) := by
  obtain ⟨sequence, hsequence, hidentity⟩ := h.identity
  simp only [readColumn, result_bind, result_tryGetOrWarn, ok_bind, h.name, h.dataType,
    h.isNullable, h.columnDefault, h.after, result_readSequence hsequence, result_pure,
    fromCatalog_eq_of_hasGenerated h.generated, fromCatalog_eq_of_hasIdentity hidentity]
  exact (okIff_readDefault schema table c).map _

end Fetched

end TdExport.Postgres
