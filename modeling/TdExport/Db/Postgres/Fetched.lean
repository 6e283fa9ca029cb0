import TdExport.Db.Postgres.Client
import TdExport.Db.Postgres.Fetch.Parts

/-!
# The statements that are fetched for a table

`fetch_table_ddl` makes the statements of a table exactly when its names are safe, and they are
those that its catalog asks for: those that create the table and its partitions, those that wait
for the tables of its schema, and those that wait for other schemas.
-/

namespace TdExport.Postgres

open Core Sql Answer

variable {σ : Type}

section Fetched

variable {server : PgRelations σ} {schema table : Str}

/-! ### Partitions -/

/-- Statements are added at their places. -/
def PartitionDdl.add (ddl : PartitionDdl) (create after cross : List Str) : PartitionDdl :=
  { ddl with
    create := ddl.create ++ create
    after := ddl.after ++ after
    crossSchema := ddl.crossSchema ++ cross }

lemma foldl_add {α : Type} (f g h : α → List Str) (l : List α) (ddl : PartitionDdl) :
    l.foldl (fun ddl a => ddl.add (f a) (g a) (h a)) ddl =
      ddl.add (l.flatMap f) (l.flatMap g) (l.flatMap h) := by
  induction l generalizing ddl with
  | nil => simp [PartitionDdl.add]
  | cons a l ih =>
    rw [List.foldl_cons, ih]
    simp [PartitionDdl.add]

/-- The statement of an own constraint, where `keep` chooses it. -/
lemma flatMap_keep (keep : OwnConstraint → Bool) (f : OwnConstraint → Str)
    (l : List OwnConstraint) :
    l.flatMap (fun c => if keep c then [f c] else []) = (l.filter keep).map f := by
  induction l with
  | nil => rfl
  | cons c l ih =>
    rw [List.flatMap_cons, ih, List.filter_cons]
    split_ifs <;> rfl

lemma placeOwnConstraint_eq {c : OwnConstraint} {kind : Str}
    (hkind : kind = "f".toList ↔ c.isForeignKey = true) (schema statement : Str)
    (ddl : PartitionDdl) :
    placeOwnConstraint schema ddl kind c.refSchema statement =
      ddl.add (if !c.isForeignKey then [statement] else [])
        (if c.isForeignKey && c.refSchema.all (· = schema) then [statement] else [])
        (if c.isForeignKey && c.refSchema.any (· ≠ schema) then [statement] else []) := by
  rw [placeOwnConstraint]
  cases hfk : c.isForeignKey with
  | false =>
    rw [if_neg fun h => Bool.noConfusion (hfk.symm.trans (hkind.mp h))]
    simp [PartitionDdl.add]
  | true =>
    rw [if_pos (hkind.mpr hfk)]
    cases c.refSchema with
    | none => simp [PartitionDdl.add]
    | some refSchema => by_cases hschema : refSchema = schema <;> simp [PartitionDdl.add, hschema]

lemma okIff_fetchPartitionOwnObjects {p : PartitionCatalog} (fileSchema : Str)
    (h : Answers (server.ownConstraints p.name.1 p.name.2) OwnConstraintRow.Holds p.own) :
    OkIff (fetchPartitionOwnObjects server p.name.1 p.name.2 fileSchema).result
      ((SafeName p.name.1 ∧ SafeName p.name.2) ∧ ∀ c ∈ p.own, SafeName c.name)
      (({} : PartitionDdl).add ((p.own.filter fun c => !c.isForeignKey).map p.ownText)
        (p.afterTexts fileSchema) (p.crossTexts fileSchema)) := by
  obtain ⟨rows, hrows, hholds⟩ := h
  rw [fetchPartitionOwnObjects, result_bind, result_query hrows, ok_bind, result_bind]
  refine (okIff_build (okIff_quotedRelation p.name.1 p.name.2)).bind ?_
  rw [result_foldlM, PartitionCatalog.afterTexts, PartitionCatalog.crossTexts, ← flatMap_keep,
    ← flatMap_keep, ← flatMap_keep, ← foldl_add]
  refine .foldlM hholds (fun ddl row c hc => ?_) _
  simp only [addOwnConstraint, result_bind, result_tryGetOrWarn, ok_bind, hc.name, hc.definition,
    hc.refSchema, result_pure]
  rw [← placeOwnConstraint_eq hc.kind]
  exact (okIff_build ((okIff_quoted c.name).map _)).map _

lemma okIff_buildPartitionDdl (p : PartitionCatalog) :
    OkIff (buildPartitionDdl p.name p.parent p.bound p.partitionKey
        (p.foreign.map ForeignServer.text))
      ((SafeName p.name.1 ∧ SafeName p.name.2) ∧ SafeName p.parent.1 ∧ SafeName p.parent.2)
      p.createText := by
  rw [buildPartitionDdl, PartitionCatalog.createText]
  refine (okIff_quotedRelation p.name.1 p.name.2).bind ?_
  cases p.foreign <;> cases p.partitionKey <;>
    exact (okIff_quotedRelation p.parent.1 p.parent.2).map _

lemma okIff_addPartition (schema table : Str) {row : PartitionRow} {p : PartitionCatalog}
    (h : row.Holds server p) (ddl : PartitionDdl) :
    OkIff (addPartition server schema table ddl row).result p.Safe
      (ddl.add p.createTexts (p.afterTexts schema) (p.crossTexts schema)) := by
  obtain ⟨hschema, hname⟩ := Prod.mk.inj h.name
  obtain ⟨hparentSchema, hparent⟩ := Prod.mk.inj h.parent
  have hstatement := okIff_buildPartitionDdl p
  have hown := okIff_fetchPartitionOwnObjects schema h.own
  have hcomments := okIff_fetchCommentDdl h.comments
  have hoptions := okIff_fetchForeignOptions h.foreign
  have hsafe : (∀ f ∈ p.foreign,
        SafeName f.server ∧ SafeOptions f.options) ∧
      ((SafeName p.name.1 ∧ SafeName p.name.2) ∧ SafeName p.parent.1 ∧ SafeName p.parent.2) ∧
      (∀ f ∈ p.foreign, (SafeName p.name.1 ∧ SafeName p.name.2) ∧
        SafeColumnOptions f.columnOptions) ∧
      ((SafeName p.name.1 ∧ SafeName p.name.2) ∧ ∀ c ∈ p.own, SafeName c.name) ∧
      (∀ c ∈ p.comments, (SafeName p.name.1 ∧ SafeName p.name.2) ∧ c.Safe) ↔ p.Safe := by
    constructor
    · rintro ⟨hserver, ⟨hname, hparent⟩, hcolumns, ⟨-, hown⟩, hcomments⟩
      exact ⟨hname, hparent, fun f hf => ⟨(hserver f hf).1, (hserver f hf).2, (hcolumns f hf).2⟩,
        hown, fun c hc => (hcomments c hc).2⟩
    · intro h
      exact ⟨fun f hf => ⟨(h.foreign f hf).server, (h.foreign f hf).options⟩, ⟨h.name, h.parent⟩,
        fun f hf => ⟨h.name, (h.foreign f hf).columnOptions⟩, ⟨h.name, h.own⟩,
        fun c hc => ⟨h.name, h.comments c hc⟩⟩
  have hddl : ddl.add p.createTexts (p.afterTexts schema) (p.crossTexts schema) = { ddl with
      create := ddl.create ++ [p.createText] ++ columnOptionsTexts p.name.1 p.name.2 p.foreign ++
        ([] ++ (p.own.filter fun c => !c.isForeignKey).map p.ownText) ++
        p.comments.map (catalogCommentText p.name.1 p.name.2)
      after := ddl.after ++ ([] ++ p.afterTexts schema)
      crossSchema := ddl.crossSchema ++ ([] ++ p.crossTexts schema) } := by
    simp [PartitionDdl.add, PartitionCatalog.createTexts]
  simp only [addPartition, result_bind, result_tryGetOrWarn, ok_bind, hschema, hname,
    hparentSchema, hparent, h.bound, h.partitionKey, result_pure]
  rw [hddl]
  exact ((okIff_readForeign _ _ h.foreign).bind ((okIff_build hstatement).bind
    (hoptions.bind (hown.bind (hcomments.map _))))).congr hsafe

lemma result_fetchTreeIndexes {indexes : List TreeIndex}
    (h : Answers (server.treeIndexes schema table) TreeIndexRow.Holds indexes) :
    (fetchTreeIndexes server schema table).result = .ok (orderTreeIndexes indexes) := by
  obtain ⟨rows, hrows, hholds⟩ := h
  have hread : (rows.mapM (readTreeIndex schema table) : Answer (PgError σ) _).result =
      .ok indexes := by
    rw [result_mapM, mapM_eq_ok_iff]
    refine hholds.imp fun row i hi => ?_
    simp only [readTreeIndex, result_bind, result_tryGetOrWarn, ok_bind, result_pure, hi.oid,
      hi.level, hi.parent, hi.definition]
  rw [fetchTreeIndexes, result_bind, result_query hrows, ok_bind, result_bind, hread]
  rfl

/-- The partitions of a table with their statements, and the indexes of all of them. -/
lemma okIff_fetchPartitionsOf {partitionKey : Option Str} {storage : Storage}
    (h : HoldsStorage server schema table partitionKey storage) :
    OkIff (fetchPartitionsOf server schema table partitionKey).result
      (∀ p ∈ storage.children, p.Safe) {
        create := storage.children.flatMap PartitionCatalog.createTexts
        indexes := storage.treeIndexTexts
        after := storage.children.flatMap (·.afterTexts schema)
        crossSchema := storage.children.flatMap (·.crossTexts schema) } := by
  cases storage with
  | own indexes =>
    rw [h.1]
    exact (OkIff.ok _).congr (by simp [Storage.children])
  | tree key partitions indexes =>
    obtain ⟨rfl, ⟨rows, hrows, hholds⟩, hindexes⟩ := h
    have hadded := OkIff.foldlM (c := ({} : PartitionDdl)) hholds
      fun ddl row p hp => okIff_addPartition schema table hp ddl
    rw [fetchPartitionsOf, if_pos Option.isSome_some, fetchPartitionsDdl, result_bind,
      result_query hrows, ok_bind, result_bind, result_foldlM]
    simp only [result_bind, result_fetchTreeIndexes hindexes, ok_bind, result_pure]
    have hmade := hadded.map fun ddl => { ddl with indexes := orderTreeIndexes indexes }
    rw [foldl_add] at hmade
    exact hmade

lemma HoldsStorage.partitionKey_eq {partitionKey : Option Str} {storage : Storage}
    (h : HoldsStorage server schema table partitionKey storage) :
    partitionKey = storage.partitionKey := by
  cases storage with
  | own _ => exact h.1
  | tree _ _ _ => exact h.1

lemma result_fetchPlainIndexDefs {partitionKey : Option Str} {storage : Storage}
    (h : HoldsStorage server schema table partitionKey storage) :
    (fetchPlainIndexDefs server schema table partitionKey).result = .ok storage.ownIndexes := by
  cases storage with
  | tree key _ _ =>
    rw [h.1]
    rfl
  | own indexes =>
    obtain ⟨rfl, rows, hrows, rfl⟩ := h
    have hread : (rows.mapM fun row => (tryGetOrWarn row "indexdef" schema table :
        Answer (PgError σ) Str)).result = .ok (rows.map Cell.read) := by
      rw [result_mapM, mapM_eq_ok_iff, List.forall₂_map_right_iff]
      exact List.forall₂_same.mpr fun row _ => result_tryGetOrWarn row _ _ _
    rw [fetchPlainIndexDefs, if_neg (by simp), fetchIndexDefs, result_bind, result_query hrows,
      ok_bind, result_bind, hread]
    rfl

/-! ### The whole table -/

lemma partitionConstraints_eq (schema : Str) (cs : List PgDdlConstraint) :
    partitionConstraints schema cs =
      (cs.filter (refersAway schema), cs.filter fun c => !refersAway schema c) := by
  have hcross : isCrossSchema schema = refersAway schema := by
    funext c
    obtain ⟨_, kind, _, _⟩ := c
    cases kind <;> rfl
  rw [partitionConstraints, hcross, List.partition_eq_filter_filter]
  rfl

/-- Every foreign key to another schema has a statement of its own. -/
lemma alterConstraints_refersAway (schema : Str) (cs : List PgDdlConstraint) :
    alterConstraints (cs.filter (refersAway schema)) = cs.filter (refersAway schema) := by
  have hkind : ∀ c ∈ cs.filter (refersAway schema), c.foreignKey?.isSome = true := by
    intro c hc
    have haway := (List.mem_filter.mp hc).2
    rw [refersAway] at haway
    rw [PgDdlConstraint.foreignKey?]
    cases hct : c.constraintType <;> rw [hct] at haway <;> first | rfl | cases haway
  have hnone : (cs.filter (refersAway schema)).filter PgDdlConstraint.isNotValidCheck = [] := by
    rw [List.filter_eq_nil_iff]
    intro c hc hcheck
    have hfk := hkind c hc
    rw [foreignKey?_of_isNotValidCheck hcheck] at hfk
    cases hfk
  rw [alterConstraints_eq, hnone, List.nil_append, List.filter_eq_self.mpr hkind]

lemma okIff_buildTableDdl (schema table : Str) (columns : List PgDdlColumn)
    (cs : List PgDdlConstraint) (indexDefs : List Str) (options : TableOptions) :
    OkIff (buildTableDdl schema table columns cs indexDefs options)
      (SafeEntries schema table columns cs)
      (tableText schema table options (tableEntries table columns cs (tableConstraints cs))
        indexDefs) :=
  .of_succeeds succeeds_buildTableDdl fun _ => buildTableDdl_eq_ok

lemma okIff_buildPgFkDdl (schema table : Str) (cs : List PgDdlConstraint) :
    OkIff (buildPgFkDdl schema table cs) (SafeAlters schema table cs)
      ((alterConstraints cs).map (alterText schema table)) :=
  .of_succeeds succeeds_buildPgFkDdl fun _ => buildPgFkDdl_eq_ok

/-- Parting the constraints asks for the same names. -/
lemma safeAlters_parts_iff (schema table : Str) (cs : List PgDdlConstraint) :
    SafeAlters schema table (cs.filter fun c => !refersAway schema c) ∧
        SafeAlters schema table (cs.filter (refersAway schema)) ↔ SafeAlters schema table cs := by
  have hparts (P : PgDdlConstraint → Prop) :
      (∀ c ∈ cs.filter (fun c => !refersAway schema c), P c) ∧
        (∀ c ∈ cs.filter (refersAway schema), P c) ↔ ∀ c ∈ cs, P c := by
    simp only [List.mem_filter, and_imp, Bool.not_eq_true']
    constructor
    · rintro ⟨hrest, haway⟩ c hc
      cases h : refersAway schema c with
      | true => exact haway c hc h
      | false => exact hrest c hc h
    · exact fun h => ⟨fun c hc _ => h c hc, fun c hc _ => h c hc⟩
  rw [SafeAlters, SafeAlters, SafeAlters, ← hparts, ← hparts]
  tauto

variable {t : TableCatalog}

/-- What the steps from the columns to the sequences ask for, without what they ask for twice. -/
lemma safeSteps_iff (hrules : CatalogRules t.created t.constraints) :
    (SafeName schema ∧ SafeName table) ∧
        (∀ c ∈ t.columns, c.column.defaultValue.isSome → c.after.isSome → SafeName c.column.name) ∧
        SafeEntries schema table t.created t.constraints ∧
        (∀ f ∈ t.foreign, (SafeName schema ∧ SafeName table) ∧
          SafeColumnOptions f.columnOptions) ∧
        SafeAlters schema table (t.constraints.filter fun c => !refersAway schema c) ∧
        SafeAlters schema table (t.constraints.filter (refersAway schema)) ∧
        (∀ p ∈ t.storage.children, p.Safe) ∧
        (SafeName schema ∧ SafeName table) ∧ (∀ s ∈ t.sequences, s.Safe) ↔
      SafeTable schema table t.created t.constraints ∧
        (∀ f ∈ t.foreign, SafeColumnOptions f.columnOptions) ∧
        (∀ p ∈ t.storage.children, p.Safe) ∧ ∀ s ∈ t.sequences, s.Safe := by
  have hparts := safeAlters_parts_iff schema table t.constraints
  rw [← hrules.safeTable_iff, ← hparts]
  constructor
  · rintro ⟨-, -, hentries, hforeign, hrest, haway, hpartitions, -, hsequences⟩
    exact ⟨⟨hentries, hrest, haway⟩, fun f hf => (hforeign f hf).2, hpartitions, hsequences⟩
  · rintro ⟨⟨hentries, hrest, haway⟩, hforeign, hpartitions, hsequences⟩
    refine ⟨hentries.1, fun c hc _ _ => ?_, hentries, fun f hf => ⟨hentries.1, hforeign f hf⟩,
      hrest, haway, hpartitions, hentries.1, hsequences⟩
    exact (hentries.2.1 c.created (List.mem_map_of_mem hc)).1.name

lemma okIff_fetchBaseTableDdl {partitionKey : Option Str} {foreignServer : Cell (Option Str)}
    {foreignOptions : Cell (Option (List Str))} (h : Holds server schema table t)
    (hrules : CatalogRules t.created t.constraints)
    (hforeign : HoldsForeign server (schema, table) foreignServer foreignOptions t.foreign)
    (hstorage : HoldsStorage server schema table partitionKey t.storage) :
    OkIff (fetchBaseTableDdl server schema table partitionKey (t.foreign.map ForeignServer.text)
        (t.comments.map (catalogCommentText schema table))).result
      (SafeTable schema table t.created t.constraints ∧
        (∀ f ∈ t.foreign, SafeColumnOptions f.columnOptions) ∧
        (∀ p ∈ t.storage.children, p.Safe) ∧ ∀ s ∈ t.sequences, s.Safe)
      (t.ddl schema table) := by
  obtain ⟨rows, hrows, hcolumns⟩ := h.columns
  have hread := OkIff.mapM hcolumns fun row c hc => okIff_readColumn (σ := σ) schema table hc
  have hcreated : (t.columns.map (CatalogColumn.toRead schema table)).map ReadColumn.column =
      t.created := List.map_map
  have hdefaults : (t.columns.map (CatalogColumn.toRead schema table)).filterMap
      ReadColumn.deferredDefault =
        t.columns.filterMap (CatalogColumn.defaultText schema table (· = schema)) :=
    List.filterMap_map
  have hcrossDefaults : (t.columns.map (CatalogColumn.toRead schema table)).filterMap
      ReadColumn.crossSchemaDefault =
        t.columns.filterMap (CatalogColumn.defaultText schema table (· ≠ schema)) :=
    List.filterMap_map
  have haway := okIff_buildPgFkDdl schema table (t.constraints.filter (refersAway schema))
  rw [alterConstraints_refersAway] at haway
  obtain rfl := hstorage.partitionKey_eq
  refine OkIff.congr ?_ (safeSteps_iff hrules)
  simp only [fetchBaseTableDdl, result_bind, result_query hrows, ok_bind, result_mapM,
    result_fetchConstraints h.constraints, result_fetchPlainIndexDefs hstorage, result_pure,
    partitionConstraints_eq]
  refine (okIff_build (okIff_quotedRelation schema table)).bind (hread.bind ?_)
  rw [hcreated, hdefaults, hcrossDefaults]
  refine (okIff_build (okIff_buildTableDdl _ _ _ _ _ _)).bind ?_
  refine (okIff_fetchForeignOptions hforeign).bind ?_
  refine (okIff_build (okIff_buildPgFkDdl _ _ _)).bind ((okIff_build haway).bind ?_)
  refine (okIff_fetchPartitionsOf hstorage).bind ?_
  exact (okIff_fetchSequenceOwnership h.sequences).map _

lemma okIff_fetchTableDdl (h : Holds server schema table t)
    (hrules : CatalogRules t.created t.constraints) :
    OkIff (fetchTableDdl server schema table).result (t.Safe schema table)
      (t.ddl schema table) := by
  obtain ⟨row, hrow, hview, hforeign, hstorage⟩ := h.relation
  have hsafe : (∀ f ∈ t.foreign, SafeName f.server ∧ SafeOptions f.options) ∧
      (∀ c ∈ t.comments, (SafeName schema ∧ SafeName table) ∧ c.Safe) ∧
      SafeTable schema table t.created t.constraints ∧
      (∀ f ∈ t.foreign, SafeColumnOptions f.columnOptions) ∧
      (∀ p ∈ t.storage.children, p.Safe) ∧ (∀ s ∈ t.sequences, s.Safe) ↔ t.Safe schema table := by
    constructor
    · rintro ⟨hserver, hcomments, htable, hcolumns, hpartitions, hsequences⟩
      exact ⟨htable, fun f hf => ⟨(hserver f hf).1, (hserver f hf).2, hcolumns f hf⟩, hpartitions,
        hsequences, fun c hc => (hcomments c hc).2⟩
    · intro h
      exact ⟨fun f hf => ⟨(h.foreign f hf).server, (h.foreign f hf).options⟩,
        fun c hc => ⟨⟨h.table.schema, h.table.table⟩, h.comments c hc⟩, h.table,
        fun f hf => (h.foreign f hf).columnOptions, h.partitions, h.sequences⟩
  refine OkIff.congr ?_ hsafe
  simp only [fetchTableDdl, readRelation, result_bind, result_query hrow, ok_bind,
    result_tryGetOrWarn, result_pure, hview]
  have hread := (okIff_readForeign schema table hforeign).map
    fun foreign => RelationInfo.mk (row.relkind.read.getD []) none (row.reloptions.read.getD [])
      row.partitionKey.read foreign
  refine hread.bind ((okIff_fetchCommentDdl h.comments).bind ?_)
  exact okIff_fetchBaseTableDdl h hrules hforeign hstorage

/-- The statements of a table are made when all its names are safe, and only then; and they are
those that its catalog asks for. -/
theorem getTableDdl_eq_ok_iff (server : PgServer σ) (dbCollation schema table : Str)
    (t : TableCatalog) (h : Holds server.toPgRelations schema table t)
    (hrules : CatalogRules t.created t.constraints) (ddl : TableDdl) :
    ((pgClient server dbCollation).getTableDdl schema table).result = .ok ddl ↔
      t.Safe schema table ∧ ddl = t.ddl schema table :=
  okIff_fetchTableDdl h hrules ddl

end Fetched

/-! ### A partitioned table that waits for another schema -/

def orderPartition : PartitionCatalog where
  name := ("shop", "order_1")
  parent := ("shop", "order")
  bound := "FOR VALUES IN (1)"
  own := [⟨"known", "FOREIGN KEY (id) REFERENCES stock.item(id)", true, some "stock"⟩]

def stockId : PgDdlColumn where
  name := "id"
  dataType := "integer"
  isNullable := true
  defaultValue := some "nextval('stock.ids'::regclass)".toList

/-- The default and the foreign key of the partition wait for the schema `stock`. -/
def orderCatalog : TableCatalog where
  columns := [⟨stockId, some "stock".toList⟩]
  storage := .tree "LIST (id)" [orderPartition] []
  comments := [⟨"p", none, "it's"⟩]

def orderServer : PgServer Unit where
  relation _ _ := .ok (some ⟨.ok (some "p".toList), .ok none, .ok (some "LIST (id)".toList),
    .ok none, .ok none, .ok none⟩)
  columns _ _ := .ok [⟨.ok "id", .ok "integer", .ok true,
    .ok (some "nextval('stock.ids'::regclass)".toList), .ok (some "stock".toList), .ok [], .ok none,
    .ok [], .ok [], .ok none, .ok 0, .ok 0, .ok 0, .ok 0, .ok 0, .ok false⟩]
  constraints _ _ := .ok []
  indexDefs _ _ := .ok []
  comments _ table := .ok (if table = "order".toList then [⟨.ok "p", .ok none, .ok "it's"⟩] else [])
  columnOptions _ _ := .ok []
  partitions _ _ := .ok [⟨.ok "shop", .ok "order_1", .ok "shop", .ok "order",
    .ok "FOR VALUES IN (1)", .ok none, .ok none, .ok none⟩]
  ownConstraints _ _ := .ok [⟨.ok "known", .ok "f",
    .ok "FOREIGN KEY (id) REFERENCES stock.item(id)", .ok (some "stock".toList)⟩]
  treeIndexes _ _ := .ok []
  sequenceOwnership _ _ := .ok []
  enums _ := .ok []
  domains _ := .ok []
  composites _ := .ok []
  ranges _ := .ok []
  sequences _ := .ok []
  functions _ := .ok []
  dependencies _ := .ok []
  extensions _ := .ok []
  schemata := .ok ["shop"]
  tables _ _ := .ok []
  columnInfos _ _ := .ok []
  keyColumns _ _ := .ok []
  indexInfos _ _ := .ok []
  viewDef _ _ := .ok (.ok [])

lemma holds_orderServer : Holds orderServer.toPgRelations "shop" "order" orderCatalog := by
  have hpartition : List.Forall₂ (PartitionRow.Holds orderServer.toPgRelations)
      [⟨.ok "shop", .ok "order_1", .ok "shop", .ok "order", .ok "FOR VALUES IN (1)", .ok none,
        .ok none, .ok none⟩] [orderPartition] :=
    .cons ⟨rfl, rfl, rfl, rfl, rfl,
      ⟨_, rfl, .cons ⟨rfl, iff_of_true rfl rfl, rfl, rfl⟩ .nil⟩, ⟨_, rfl, .nil⟩⟩ .nil
  constructor
  case relation => exact ⟨_, rfl, rfl, rfl, rfl, ⟨_, rfl, hpartition⟩, ⟨_, rfl, .nil⟩⟩
  case columns =>
    exact ⟨_, rfl, .cons ⟨rfl, rfl, rfl, rfl, rfl, .inr rfl, none, rfl, by decide, by decide⟩ .nil⟩
  case constraints => exact ⟨_, rfl, .nil⟩
  case sequences => exact ⟨_, rfl, .nil⟩
  case comments => exact ⟨_, rfl, .cons ⟨rfl, rfl, rfl⟩ .nil⟩

theorem getTableDdl_eq_ok_iff_order : ∃ ddl,
    ((pgClient orderServer []).getTableDdl "shop" "order").result = .ok ddl ∧
      orderCatalog.Safe "shop" "order" ∧ ddl.after = [] ∧
      ddl.crossSchema =
        ["ALTER TABLE \"shop\".\"order\" ALTER COLUMN \"id\" SET DEFAULT ".toList ++
            "nextval('stock.ids'::regclass);".toList,
          "ALTER TABLE \"shop\".\"order_1\" ADD CONSTRAINT \"known\" ".toList ++
            "FOREIGN KEY (id) REFERENCES stock.item(id);".toList] := by
  have hrules : CatalogRules orderCatalog.created orderCatalog.constraints :=
    ⟨fun _ hc => absurd hc List.not_mem_nil, .nil, fun _ hc => absurd hc List.not_mem_nil⟩
  obtain ⟨ddl, hddl⟩ :=
    exists_eq_ok_of_isOk (x := ((pgClient orderServer []).getTableDdl "shop" "order").result)
      (by decide +kernel)
  obtain ⟨hsafe, rfl⟩ :=
    (getTableDdl_eq_ok_iff orderServer [] "shop" "order" _ holds_orderServer hrules ddl).mp hddl
  exact ⟨_, hddl, hsafe, by decide +kernel, by decide +kernel⟩

end TdExport.Postgres
