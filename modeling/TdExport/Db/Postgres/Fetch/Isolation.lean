import TdExport.Db.Postgres.Fetch.SchemaDdl

/-!
# Objects that cannot be written

`fetch_schema_ddl` fails when one of its queries fails. An object whose statement cannot be made
costs nothing but itself, and nothing is left out without a warning.
-/

namespace TdExport.Postgres

open Core Answer

/-! ### The loops end -/

section Total

variable {K S : Type} [LinearOrder K]

lemma length_insertEntry_le (k : K) (v : S) (l : List (K × S)) :
    (SortedMap.insertEntry k v l).length ≤ l.length + 1 := by
  induction l with
  | nil => rfl
  | cons e l ih =>
    rw [SortedMap.insertEntry]
    split_ifs
    · exact le_rfl
    · exact Nat.le_succ _
    · exact Nat.succ_le_succ ih

lemma length_keys_ofList_le (l : List (K × S)) : (SortedMap.ofList l).keys.length ≤ l.length := by
  have hfold : ∀ (l : List (K × S)) (m : SortedMap K S),
      (l.foldl (fun m e => m.insert e.1 e.2) m).keys.length ≤ m.keys.length + l.length := by
    intro l
    induction l with
    | nil => exact fun m => le_rfl
    | cons e l ih =>
      intro m
      have hone : (m.insert e.1 e.2).keys.length ≤ m.keys.length + 1 := by
        rw [SortedMap.keys, SortedMap.keys, List.length_map, List.length_map]
        exact length_insertEntry_le e.1 e.2 m.entries
      rw [List.foldl_cons, List.length_cons]
      exact (ih _).trans (by omega)
  exact (hfold l ⟨[], .nil⟩).trans (Nat.zero_add _).le

lemma exists_orderByDependency (nodes : List (K × S)) (deps : List (K × K)) :
    ∃ order, orderByDependency nodes deps = some order := by
  have hleft : leftKeys (SortedMap.ofList nodes) [] = (SortedMap.ofList nodes).keys := by
    simp [leftKeys]
  have hedges : ∀ a b, Needs (innerEdges (SortedMap.ofList nodes) deps) a b →
      a ∈ (SortedMap.ofList nodes).keys ∧ a ≠ b := by
    intro a b hab
    obtain ⟨-, hne, ha, -⟩ := mem_innerEdges.mp hab
    exact ⟨ha, hne⟩
  obtain ⟨r, hrun, -⟩ := run_kahnStep hedges (Emitting.start (SortedMap.ofList nodes) deps)
    (hleft ▸ length_keys_ofList_le nodes)
  refine ⟨r.ordered ++ r.statements.values, ?_⟩
  simp only [orderByDependency]
  simp only [depGraph_eq] at hrun ⊢
  rw [hrun, Option.map_some]

/-- Types and functions always have an order, also if OIDs could not be read. -/
lemma exists_orderTypesAndFunctions (types : List (ℤ × Str)) (functions : List PgFunction)
    (deps : Deps) : ∃ order, orderTypesAndFunctions types functions deps = some order := by
  obtain ⟨early, late, hplace, -⟩ := placeTypesAndFunctions_eq types functions deps
  obtain ⟨before, hbefore⟩ := exists_orderByDependency early deps
  obtain ⟨after, hafter⟩ := exists_orderByDependency late deps
  exact ⟨(before, after), by simp [orderTypesAndFunctions, hplace, hbefore, hafter]⟩

end Total

/-! ### Reading rows -/

/-- Reading a row does not fail, and what is left out is reported. -/
structure Isolated {ε α : Type} (x : Answer ε (Option α)) : Prop where
  succeeds : ∃ a, x.result = .ok a
  reported : ¬ x.Gives none

section Rows

variable {σ ε α β ρ : Type} {schema : Str}

lemma Isolated.tryGetOrWarn [Inhabited β] {cell : Cell β} {column table : Str}
    {f : β → Answer ε (Option α)} (h : ∀ b, Isolated (f b)) :
    Isolated (Postgres.tryGetOrWarn cell column schema table >>= f) := by
  constructor
  · rw [result_bind, result_tryGetOrWarn]
    exact (h _).succeeds
  · intro hgives
    obtain ⟨b, -, hb⟩ := gives_bind.mp hgives
    exact (h b).reported hb

lemma isolated_orSkip {w : AppError → Warning ε} {statement : Except AppError α} :
    Isolated (orSkip w statement) := by
  cases statement with
  | ok s => exact ⟨⟨some s, rfl⟩, fun h => by cases h⟩
  | error e => exact ⟨⟨none, rfl⟩, fun h => by cases h⟩

lemma Isolated.map {x : Answer ε (Option β)} (h : Isolated x) (f : β → α) :
    Isolated (x >>= fun b => pure (b.map f)) := by
  constructor
  · obtain ⟨b, hb⟩ := h.succeeds
    rw [result_bind, hb]
    exact ⟨_, rfl⟩
  · intro hgives
    obtain ⟨b, hb, hnone⟩ := gives_bind.mp hgives
    obtain rfl := Option.map_eq_none_iff.mp (gives_pure.mp hnone)
    exact h.reported hb

lemma isolated_addType {oid : ℤ} {kind name : Str} {statement : Except AppError Str} :
    Isolated (addType (ε := ε) schema oid kind name statement) :=
  isolated_orSkip.map _

lemma isolated_readEnum (row : EnumRow) : Isolated (readEnum (ε := ε) schema row) :=
  .tryGetOrWarn fun _ => .tryGetOrWarn fun _ => .tryGetOrWarn fun _ => isolated_addType

lemma isolated_readDomain (row : DomainRow) : Isolated (readDomain (ε := ε) schema row) :=
  .tryGetOrWarn fun _ => .tryGetOrWarn fun _ => .tryGetOrWarn fun _ => .tryGetOrWarn fun _ =>
    .tryGetOrWarn fun _ => .tryGetOrWarn fun _ => .tryGetOrWarn fun _ => .tryGetOrWarn fun _ =>
      .tryGetOrWarn fun _ => isolated_addType

lemma isolated_readComposite (row : CompositeRow) :
    Isolated (readComposite (ε := ε) schema row) :=
  .tryGetOrWarn fun _ => .tryGetOrWarn fun _ => .tryGetOrWarn fun _ => .tryGetOrWarn fun _ =>
    isolated_addType

lemma isolated_readRange (row : RangeRow) : Isolated (readRange (ε := ε) schema row) :=
  .tryGetOrWarn fun _ => .tryGetOrWarn fun _ => .tryGetOrWarn fun _ => .tryGetOrWarn fun _ =>
    .tryGetOrWarn fun _ => .tryGetOrWarn fun _ => isolated_addType

lemma isolated_readSequence (row : SequenceRow) : Isolated (readSequence (ε := ε) schema row) :=
  .tryGetOrWarn fun _ => .tryGetOrWarn fun _ => .tryGetOrWarn fun _ => .tryGetOrWarn fun _ =>
    .tryGetOrWarn fun _ => .tryGetOrWarn fun _ => .tryGetOrWarn fun _ => .tryGetOrWarn fun _ =>
      isolated_orSkip

lemma isolated_readFunction (row : FunctionRow) : Isolated (readFunction (ε := ε) schema row) :=
  .tryGetOrWarn fun _ => .tryGetOrWarn fun _ => .tryGetOrWarn fun _ => .tryGetOrWarn fun _ =>
    isolated_orSkip.map _

lemma isolated_readExtension (row : ExtensionRow) :
    Isolated (readExtension (ε := ε) schema row) :=
  .tryGetOrWarn fun _ => .tryGetOrWarn fun _ => isolated_orSkip

variable {label : Str} {answer : Except σ (List ρ)} {rows : List ρ}

/-- What the rows give, without those that give nothing. -/
def usable (read : ρ → Answer ε (Option α)) (rows : List ρ) : List α :=
  rows.filterMap fun row => (read row).result.toOption.join

lemma exists_result_mapM {read : ρ → Answer ε (Option α)} (h : ∀ row, Isolated (read row))
    (rows : List ρ) :
    ∃ as, (rows.mapM read).result = .ok as ∧ as.filterMap id = usable read rows := by
  induction rows with
  | nil => exact ⟨[], rfl, rfl⟩
  | cons row rows ih =>
    obtain ⟨as, has, husable⟩ := ih
    obtain ⟨a, ha⟩ := (h row).succeeds
    refine ⟨a :: as, ?_, ?_⟩
    · simp only [List.mapM_cons, result_bind, ha, has]
      rfl
    · have hjoin : (read row).result.toOption.join = a := by
        rw [ha]
        rfl
      rw [usable, List.filterMap_cons, List.filterMap_cons, hjoin, husable]
      rfl

/-- A row costs at most itself. -/
lemma result_fetchRows {read : ρ → Answer (PgError σ) (Option α)} (h : ∀ row, Isolated (read row))
    (hrows : answer = .ok rows) :
    (fetchRows schema label answer read).result = .ok (usable read rows) := by
  obtain ⟨as, has, husable⟩ := exists_result_mapM h rows
  have hquery : (query schema label answer).result = .ok rows := by
    rw [hrows]
    rfl
  rw [fetchRows, result_bind, hquery, ← husable]
  change ((rows.mapM read) >>= fun read => pure (read.filterMap id)).result = _
  rw [result_bind, has]
  rfl

/-- Without a warning every row gives something. -/
lemma forall₂_of_gives_fetchRows {read : ρ → Answer (PgError σ) (Option α)} {as : List α}
    (h : ∀ row, Isolated (read row)) (hrows : answer = .ok rows)
    (hgives : (fetchRows schema label answer read).Gives as) :
    List.Forall₂ (fun row a => (read row).Gives (some a)) rows as := by
  simp only [fetchRows, gives_bind, gives_query, hrows, Except.ok.injEq, exists_eq_left',
    gives_mapM, gives_pure] at hgives
  obtain ⟨answers, hanswers, rfl⟩ := hgives
  clear hrows
  induction hanswers with
  | nil => exact .nil
  | @cons row a rows as ha _ ih =>
    cases a with
    | none => exact absurd ha (h row).reported
    | some a => exact .cons ha ih

/-- Without its rows there is nothing to read. -/
lemma exists_rows_of_result {read : ρ → Answer (PgError σ) (Option α)} {as : List α}
    (h : (fetchRows schema label answer read).result = .ok as) : ∃ rows, answer = .ok rows := by
  cases answer with
  | error e => cases h
  | ok rows => exact ⟨rows, rfl⟩

end Rows

/-! ### The objects of a schema -/

/-- The rows that the queries for a schema give. -/
structure SchemaRows where
  enums : List EnumRow := []
  domains : List DomainRow := []
  composites : List CompositeRow := []
  ranges : List RangeRow := []
  sequences : List SequenceRow := []
  functions : List FunctionRow := []
  extensions : List ExtensionRow := []

variable {σ : Type} (server : PgSchemaObjects σ) (schema : Str) (rows : SchemaRows)

/-- The server answers all queries but that for the dependencies, which may fail. -/
structure Answered : Prop where
  enums : server.enums schema = .ok rows.enums
  domains : server.domains schema = .ok rows.domains
  composites : server.composites schema = .ok rows.composites
  ranges : server.ranges schema = .ok rows.ranges
  sequences : server.sequences schema = .ok rows.sequences
  functions : server.functions schema = .ok rows.functions
  extensions : server.extensions schema = .ok rows.extensions

/-- The dependencies, none when they cannot be fetched. -/
def knownDeps : Deps :=
  match server.dependencies schema with
  | .ok deps => deps.map fun e => (objectKey e.1, objectKey e.2)
  | .error _ => []

namespace SchemaRows

variable (σ)

def usableTypes : List (ℤ × Str) :=
  usable (readEnum (ε := PgError σ) schema) rows.enums ++
    usable (readDomain (ε := PgError σ) schema) rows.domains ++
    usable (readComposite (ε := PgError σ) schema) rows.composites ++
    usable (readRange (ε := PgError σ) schema) rows.ranges

def usableSequences : List Str := usable (readSequence (ε := PgError σ) schema) rows.sequences

def usableFunctions : List PgFunction :=
  usable (readFunction (ε := PgError σ) schema) rows.functions

def usableExtensions : List (List Str) :=
  usable (readExtension (ε := PgError σ) schema) rows.extensions

/-- Every row gives something, without a warning. -/
structure AllUsed : Prop where
  enums : ∀ row ∈ rows.enums, ∃ a, (readEnum (ε := PgError σ) schema row).Gives (some a)
  domains : ∀ row ∈ rows.domains, ∃ a, (readDomain (ε := PgError σ) schema row).Gives (some a)
  composites : ∀ row ∈ rows.composites,
    ∃ a, (readComposite (ε := PgError σ) schema row).Gives (some a)
  ranges : ∀ row ∈ rows.ranges, ∃ a, (readRange (ε := PgError σ) schema row).Gives (some a)
  sequences : ∀ row ∈ rows.sequences,
    ∃ a, (readSequence (ε := PgError σ) schema row).Gives (some a)
  functions : ∀ row ∈ rows.functions,
    ∃ a, (readFunction (ε := PgError σ) schema row).Gives (some a)
  extensions : ∀ row ∈ rows.extensions,
    ∃ a, (readExtension (ε := PgError σ) schema row).Gives (some a)

end SchemaRows

variable {server schema rows}

lemma result_fetchDependencies :
    (fetchDependencies server schema).result = .ok (knownDeps server schema) := by
  rw [fetchDependencies, knownDeps]
  cases server.dependencies schema <;> rfl

lemma result_fetchSchemaDdl (h : Answered server schema rows) {order : List Str × List Str}
    (horder : orderTypesAndFunctions (rows.usableTypes σ schema) (rows.usableFunctions σ schema)
      (knownDeps server schema) = some order) :
    (fetchSchemaDdl server schema).result = .ok {
      before := (rows.usableExtensions σ schema).flatten ++ rows.usableSequences σ schema ++ order.1
      afterTables := order.2 } := by
  have hok {α β : Type} (a : α) (f : α → Except (PgError σ) β) : (.ok a >>= f) = f a := rfl
  simp only [fetchSchemaDdl, result_bind, result_fetchRows isolated_readEnum h.enums,
    result_fetchRows isolated_readDomain h.domains,
    result_fetchRows isolated_readComposite h.composites,
    result_fetchRows isolated_readRange h.ranges,
    result_fetchRows isolated_readSequence h.sequences,
    result_fetchRows isolated_readFunction h.functions,
    result_fetchRows isolated_readExtension h.extensions, result_fetchDependencies, hok,
    result_pure]
  rw [SchemaRows.usableTypes, SchemaRows.usableFunctions] at horder
  rw [horder]
  rfl

/-- Nothing comes of a schema when one of the queries fails. -/
lemma exists_answered {ddl : SchemaDdl} (h : (fetchSchemaDdl server schema).result = .ok ddl) :
    ∃ rows, Answered server schema rows := by
  simp only [fetchSchemaDdl, result_bind, bind_eq_ok] at h
  obtain ⟨_, henums, _, hdomains, _, hcomposites, _, hranges, _, hsequences, _, hfunctions, _, -, _,
    hextensions, -⟩ := h
  obtain ⟨enums, henums⟩ := exists_rows_of_result henums
  obtain ⟨domains, hdomains⟩ := exists_rows_of_result hdomains
  obtain ⟨composites, hcomposites⟩ := exists_rows_of_result hcomposites
  obtain ⟨ranges, hranges⟩ := exists_rows_of_result hranges
  obtain ⟨sequences, hsequences⟩ := exists_rows_of_result hsequences
  obtain ⟨functions, hfunctions⟩ := exists_rows_of_result hfunctions
  obtain ⟨extensions, hextensions⟩ := exists_rows_of_result hextensions
  exact ⟨⟨enums, domains, composites, ranges, sequences, functions, extensions⟩, henums, hdomains,
    hcomposites, hranges, hsequences, hfunctions, hextensions⟩

/-- Nothing is left out without a warning. -/
lemma allUsed_of_gives {ddl : SchemaDdl} (h : Answered server schema rows)
    (hgives : (fetchSchemaDdl server schema).Gives ddl) : rows.AllUsed σ schema := by
  simp only [fetchSchemaDdl, gives_bind] at hgives
  obtain ⟨_, henums, _, hdomains, _, hcomposites, _, hranges, _, hsequences, _, hfunctions, _, -, _,
    hextensions, -⟩ := hgives
  have hused {ρ α : Type} {label : Str} {answer : Except σ (List ρ)} {l : List ρ}
      {read : ρ → Answer (PgError σ) (Option α)} {as : List α} (hread : ∀ row, Isolated (read row))
      (hl : answer = .ok l) (has : (fetchRows schema label answer read).Gives as) :
      ∀ row ∈ l, ∃ a, (read row).Gives (some a) := by
    intro row hrow
    obtain ⟨a, -, ha⟩ := exists_of_mem_forall₂
      (List.Forall₂.flip (forall₂_of_gives_fetchRows hread hl has)) hrow
    exact ⟨a, ha⟩
  exact ⟨hused isolated_readEnum h.enums henums, hused isolated_readDomain h.domains hdomains,
    hused isolated_readComposite h.composites hcomposites,
    hused isolated_readRange h.ranges hranges, hused isolated_readSequence h.sequences hsequences,
    hused isolated_readFunction h.functions hfunctions,
    hused isolated_readExtension h.extensions hextensions⟩

/-- The objects of a schema. They cannot be fetched exactly when a query other than that for the
dependencies fails. Otherwise every row whose statement can be made has it, whatever becomes of the
other rows, and a row that has none is reported. -/
theorem fetchSchemaDdl_spec (server : PgSchemaObjects σ) (schema : Str) :
    ((∃ ddl, (fetchSchemaDdl server schema).result = .ok ddl) ↔
      ∃ rows, Answered server schema rows) ∧
    ∀ rows, Answered server schema rows → ((rows.usableTypes σ schema).map Prod.fst).Nodup →
      ((rows.usableFunctions σ schema).map PgFunction.oid).Nodup →
      ∃ ddl before after, (fetchSchemaDdl server schema).result = .ok ddl ∧
        Created (rows.usableTypes σ schema) (rows.usableFunctions σ schema)
          (knownDeps server schema) before after ∧
        ddl.before = (rows.usableExtensions σ schema).flatten ++ rows.usableSequences σ schema ++
          before.map Prod.snd ∧
        ddl.afterTables = after.map Prod.snd ∧
        ((fetchSchemaDdl server schema).warnings = [] → rows.AllUsed σ schema) := by
  refine ⟨⟨fun ⟨_, h⟩ => exists_answered h, fun ⟨rows, h⟩ => ?_⟩, ?_⟩
  · obtain ⟨order, horder⟩ := exists_orderTypesAndFunctions (rows.usableTypes σ schema)
      (rows.usableFunctions σ schema) (knownDeps server schema)
    exact ⟨_, result_fetchSchemaDdl h horder⟩
  · intro rows h htypes hfunctions
    obtain ⟨before, after, -, horder, hcreated⟩ :=
      creationOrder_created htypes hfunctions (knownDeps server schema)
    have hresult := result_fetchSchemaDdl h horder
    refine ⟨_, before, after, hresult, hcreated, rfl, rfl, fun hwarnings => ?_⟩
    exact allUsed_of_gives h (congrArg₂ Answer.mk hwarnings hresult)

/-! ### A sequence without a statement -/

/-- A type, a function that takes it and a sequence whose name is dangerous. -/
def moodRows : SchemaRows where
  enums := [⟨.ok 10, .ok "mood", .ok ["sad", "happy"]⟩]
  sequences := [⟨.ok "a;b", .ok "bigint", .ok 1, .ok 1, .ok 1, .ok 9, .ok 1, .ok false⟩]
  functions :=
    [⟨.ok 11, .ok "f", .ok "CREATE FUNCTION s.f(s.mood) RETURNS int RETURN 1;", .ok false⟩]

/-- The query for the dependencies fails. -/
def moodServer : PgSchemaObjects Unit where
  enums _ := .ok moodRows.enums
  domains _ := .ok []
  composites _ := .ok []
  ranges _ := .ok []
  sequences _ := .ok moodRows.sequences
  functions _ := .ok moodRows.functions
  dependencies _ := .error ()
  extensions _ := .ok []

theorem fetchSchemaDdl_spec_mood : ∃ ddl before after,
    (fetchSchemaDdl moodServer "s").result = .ok ddl ∧
      Created (moodRows.usableTypes Unit "s") (moodRows.usableFunctions Unit "s") [] before after ∧
      (moodRows.usableTypes Unit "s").length = 1 ∧
      (moodRows.usableFunctions Unit "s").length = 1 ∧
      ddl.before = before.map Prod.snd ∧ ddl.afterTables = after.map Prod.snd := by
  obtain ⟨ddl, before, after, hresult, hcreated, hbefore, hafter, -⟩ :=
    (fetchSchemaDdl_spec moodServer "s").2 moodRows ⟨rfl, rfl, rfl, rfl, rfl, rfl, rfl⟩
      (by decide +kernel) (by decide +kernel)
  have hsequences : moodRows.usableSequences Unit "s" = [] := by decide +kernel
  have hextensions : moodRows.usableExtensions Unit "s" = [] := rfl
  rw [hsequences, hextensions] at hbefore
  exact ⟨ddl, before, after, hresult, hcreated, by decide +kernel, by decide +kernel, hbefore,
    hafter⟩

end TdExport.Postgres
