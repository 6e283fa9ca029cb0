import TdExport.Run.Basic

/-!
# Concurrency makes no difference

The tasks of a schema write nothing and read nothing that another task writes, but for the set of
the columns that were reported and the counter of the warnings, which do not depend on the order of
the events. So the whole run is the one in which the tasks go one after the other. How long the
tasks take is seen in the warnings about slow ones, and nowhere else.
-/

namespace TdExport

open Core

variable {ε κ ι : Type}

/-- One task after the other, each to its end. -/
def serialMetadata (db : DbClient ε) (format : OutputFormat)
    (slow : Str → List TableDef → ℕ → Bool) : Metadata ε := fun schema tables =>
  ((tasksOf db format schema (slow schema tables) tables).map Task.result,
    (tasksOf db format schema (slow schema tables) tables).flatMap Task.actions)

/-- The same, and none of them is slow. -/
def quickMetadata (db : DbClient ε) (format : OutputFormat) : Metadata ε :=
  serialMetadata db format fun _ _ _ => false

/-! ### The order of the actions -/

/-- The same tables, and the same actions in some order. -/
def Metadata.Agree (metadata metadata' : Metadata ε) : Prop :=
  ∀ schema tables, (metadata schema tables).1 = (metadata' schema tables).1 ∧
    (metadata schema tables).2.Perm (metadata' schema tables).2

lemma Scheduler.agree {db : DbClient ε} {format : OutputFormat} (scheduler : Scheduler db format) :
    scheduler.metadata.Agree (serialMetadata db format scheduler.slow) := fun schema tables =>
  ⟨rfl, scheduler.trace_perm schema tables⟩

/-- The tasks can go one after the other. -/
def serialScheduler (db : DbClient ε) (format : OutputFormat)
    (slow : Str → List TableDef → ℕ → Bool) : Scheduler db format where
  slow := slow
  trace schema tables := (serialMetadata db format slow schema tables).2
  trace_perm _ _ := .refl _

lemma World.warned_perm {ws ws' : List (Warning ε)} (h : ws.Perm ws') (w : World κ ι) :
    w.warned ws = w.warned ws' := by
  rw [warned, warned, WarnState.recordAll_perm h]

section Agree

variable [DecidableEq κ] [DecidableEq ι] {m : Machine κ ι} {db : DbClient ε}
  {metadata metadata' : Metadata ε} {config : RunConfig}

lemma exportSchema_congr (h : metadata.Agree metadata') (schema : Str) (exporter : Exporter ι)
    (w : World κ ι) :
    exportSchema m db metadata config schema exporter w =
      exportSchema m db metadata' config schema exporter w := by
  rw [exportSchema, exportSchema]
  cases (db.getTables schema (config.exceptTables.getD [])).result with
  | error e => rfl
  | ok tables =>
    obtain ⟨htables, htrace⟩ := h schema tables
    have hwarnings : ∀ w : World κ ι, w.warned (warningsOf (metadata schema tables).2) =
        w.warned (warningsOf (metadata' schema tables).2) :=
      World.warned_perm (htrace.filterMap Action.warning?)
    dsimp only
    rw [htables]
    simp only [hwarnings]

lemma exportSchemas_congr (h : metadata.Agree metadata') (schemas : List Str)
    (exporter : Exporter ι) (w : World κ ι) :
    exportSchemas m db metadata config schemas exporter w =
      exportSchemas m db metadata' config schemas exporter w := by
  induction schemas generalizing exporter w with
  | nil => rfl
  | cons schema schemas ih =>
    rw [exportSchemas, exportSchemas, exportSchema_congr h]
    congr 1
    funext p
    obtain ⟨result, w⟩ := p
    cases result with
    | error e => rfl
    | ok exporter => exact ih exporter w

lemma exportDatabase_congr (h : metadata.Agree metadata') (strict : Bool) (w : World κ ι) :
    exportDatabase m db metadata config strict w =
      exportDatabase m db metadata' config strict w := by
  rw [exportDatabase, exportDatabase]
  cases (db.getSchemas config).result with
  | error e => rfl
  | ok catalog => simp only [exportCatalog, exportSchemas_congr h]

lemma run_eq_runWith (schedulers : ∀ db format, Scheduler (ε := ε) db format)
    {connect : RunConfig → Answer ε (DbClient ε)} {cli : Cli} {console : Console} {w : World κ ι} :
    run m connect schedulers cli console w =
      runWith m connect (fun db format => serialMetadata db format (schedulers db format).slow) cli
        console w := by
  have hcongr : connectAndExport m connect (fun db format => (schedulers db format).metadata) =
      connectAndExport m connect
        fun db format => serialMetadata db format (schedulers db format).slow := by
    funext strict config w
    rw [connectAndExport, connectAndExport]
    cases (connect config).result with
    | error e => rfl
    | ok db => exact exportDatabase_congr (schedulers db config.outputFormat).agree strict _
  rw [run, runWith, runWith, hcongr]

end Agree

/-! ### Slow tasks -/

section Tasks

variable {db : DbClient ε} {format : OutputFormat} {schema : Str} {slow : ℕ → Bool}
  {tables : List TableDef}

lemma tasksOf_cons (table : TableDef) :
    tasksOf db format schema slow (table :: tables) =
      enrichTable db schema format table (slow 0) ::
        tasksOf db format schema (fun i => slow (i + 1)) tables :=
  List.mapIdx_cons

/-- The tables do not depend on how long the tasks take. -/
lemma results_tasksOf :
    (tasksOf db format schema slow tables).map Task.result =
      tables.map (enriched db schema format) := by
  induction tables generalizing slow with
  | nil => rfl
  | cons table tables ih =>
    rw [tasksOf_cons, List.map_cons, List.map_cons, ih, result_enrichTable]

/-- `k` more warnings were counted. -/
def World.delayed (k : ℕ) (w : World κ ι) : World κ ι :=
  { w with warn := { w.warn with warnings := w.warn.warnings + k } }

lemma World.delayed_zero (w : World κ ι) : w.delayed 0 = w := rfl

lemma World.delayed_delayed (j k : ℕ) (w : World κ ι) :
    (w.delayed j).delayed k = w.delayed (j + k) := by
  simp only [delayed, Nat.add_assoc]

lemma World.warned_delayed (k : ℕ) (w : World κ ι) (ws : List (Warning ε)) :
    (w.delayed k).warned ws = (w.warned ws).delayed k := by
  induction ws generalizing w with
  | nil => rfl
  | cons x ws ih =>
    have hcons : ∀ w : World κ ι, w.warned (x :: ws) = (w.warned [x]).warned ws := fun w => rfl
    have hrecord : (w.delayed k).warned [x] = (w.warned [x]).delayed k := by
      cases hx : x.missing? with
      | none =>
        simp only [warned, delayed, WarnState.recordAll_cons, WarnState.recordAll_nil,
          WarnState.record_of_not_missing hx, Nat.add_right_comm]
      | some c =>
        simp only [warned, delayed, WarnState.recordAll_cons, WarnState.recordAll_nil,
          WarnState.record_of_missing hx]
        split_ifs <;> simp only [Nat.add_right_comm]
    rw [hcons, hcons, hrecord, ih]

lemma World.warned_append (w : World κ ι) (ws ws' : List (Warning ε)) :
    w.warned (ws ++ ws') = (w.warned ws).warned ws' := by
  simp only [World.warned, WarnState.recordAll_append]

lemma World.warned_enrichTable (slow : Bool) (table : TableDef) (w : World κ ι) :
    w.warned (warningsOf (enrichTable db schema format table slow).actions) =
      (w.warned (warningsOf (enrichTable db schema format table false).actions)).delayed
        slow.toNat := by
  cases slow with
  | false => rfl
  | true =>
    have hslow : warningsOf (enrichTable db schema format table true).actions =
        warningsOf (enrichTable db schema format table false).actions ++
          [.slowExtract schema (enriched db schema format table).tableName] :=
      warningsOf_append _ _
    rw [hslow, warned_append]
    rfl

/-- Each slow task counts once. -/
lemma World.warned_tasksOf (w : World κ ι) :
    w.warned (warningsOf ((tasksOf db format schema slow tables).flatMap Task.actions)) =
      (w.warned (warningsOf ((tasksOf db format schema (fun _ => false) tables).flatMap
        Task.actions))).delayed ((List.range tables.length).countP slow) := by
  induction tables generalizing slow w with
  | nil => rfl
  | cons table tables ih =>
    have hcount : (List.range (tables.length + 1)).countP slow =
        (slow 0).toNat + (List.range tables.length).countP fun i => slow (i + 1) := by
      rw [List.range_succ_eq_map, List.countP_cons, List.countP_map, Nat.add_comm]
      cases slow 0 <;> rfl
    rw [tasksOf_cons, tasksOf_cons, List.flatMap_cons, List.flatMap_cons, warningsOf_append,
      warningsOf_append, warned_append, warned_append, ih, warned_enrichTable, warned_delayed,
      delayed_delayed, List.length_cons, hcount]

end Tasks

section Slow

variable [DecidableEq κ] [DecidableEq ι] {m : Machine κ ι} {db : DbClient ε} {config : RunConfig}
  {slow : Str → List TableDef → ℕ → Bool}

omit [DecidableEq κ] [DecidableEq ι] in
lemma fetchPreamble_delayed (k : ℕ) (schema : Str) (exporter : Exporter ι) (w : World κ ι) :
    fetchPreamble db config schema exporter (w.delayed k) =
      Prod.map id (World.delayed k) (fetchPreamble db config schema exporter w) := by
  rw [fetchPreamble, fetchPreamble]
  split_ifs
  · dsimp only
    rw [World.warned_delayed]
    cases (db.getSchemaDdl schema).result with
    | ok ddl => rfl
    | error e => exact congrArg (Prod.mk exporter) (World.warned_delayed _ _ _)
  · rfl

lemma writeTables_delayed (k : ℕ) (schema : Str) (tables : List TableDef) (exporter : Exporter ι)
    (w : World κ ι) :
    exporter.writeTables m schema tables (w.delayed k) =
      (exporter.writeTables m schema tables w).map
        (Except.map (Prod.map id (World.delayed k))) := by
  cases exporter with
  | excel self =>
    rw [Exporter.writeTables, Exporter.writeTables]
    cases self.writeTables m schema tables <;> rfl
  | markdown self =>
    rw [Exporter.writeTables, Exporter.writeTables, Markdown.MarkdownExporter.writeTables,
      Markdown.MarkdownExporter.writeTables]
    cases self.files.lookup schema <;> rfl
  | sql self =>
    rw [Exporter.writeTables, Exporter.writeTables, Sql.SqlExporter.writeTables,
      Sql.SqlExporter.writeTables]
    dsimp only
    cases self.files.lookup schema with
    | none => rfl
    | some entry =>
      cases Sql.writeSql m.tables.toUnicode schema ((self.preambles.lookup schema).getD {}) tables
        self.dbType with
      | none => rfl
      | some text =>
        cases Sql.writeSqlWarnings (ε := Empty) m.tables.toUnicode schema tables self.dbType with
        | none => rfl
        | some ws =>
          simp only [Option.bind_eq_bind, Option.bind_some, Option.pure_def, Option.map_some]
          exact congrArg (fun w => some (Except.ok (Exporter.sql _, w))) (World.warned_delayed k
            { w with disk := _ } ws)

variable (m db config slow) in
/-- One schema, after `j` slow tasks. -/
lemma exists_exportSchema_delayed (j : ℕ) (schema : Str) (exporter : Exporter ι) (w : World κ ι) :
    ∃ k, ((∀ schema tables i, slow schema tables i = false) → k = 0) ∧
      exportSchema m db (serialMetadata db config.outputFormat slow) config schema exporter
          (w.delayed j) =
        (exportSchema m db (quickMetadata db config.outputFormat) config schema exporter w).map
          (Prod.map id (World.delayed (j + k))) := by
  rw [exportSchema, exportSchema]
  cases (db.getTables schema (config.exceptTables.getD [])).result with
  | error e =>
    refine ⟨0, fun _ => rfl, ?_⟩
    exact congrArg (fun w => some (Except.error _, w)) (World.warned_delayed j w _)
  | ok tables =>
    have hzero : (∀ schema tables i, slow schema tables i = false) →
        (List.range tables.length).countP (slow schema tables) = 0 := by
      intro hquick
      rw [List.countP_eq_zero]
      exact fun i _ => Bool.eq_false_iff.mp (hquick schema tables i)
    have htables : (serialMetadata db config.outputFormat slow schema tables).1 =
        (quickMetadata db config.outputFormat schema tables).1 :=
      results_tasksOf.trans results_tasksOf.symm
    have hwarned : ∀ w : World κ ι,
        w.warned (warningsOf (serialMetadata db config.outputFormat slow schema tables).2) =
          (w.warned (warningsOf (quickMetadata db config.outputFormat schema tables).2)).delayed
            ((List.range tables.length).countP (slow schema tables)) := fun w =>
      World.warned_tasksOf w
    refine ⟨_, hzero, ?_⟩
    dsimp only
    rw [htables, hwarned, World.warned_delayed, World.warned_delayed, World.delayed_delayed,
      fetchPreamble_delayed, Prod.map_fst, Prod.map_snd, writeTables_delayed, Option.map_map,
      Option.map_map]
    refine congrArg (fun f => Option.map f _) (funext fun r => ?_)
    cases r <;> rfl

variable (m db config slow) in
/-- The schemas, one after the other. -/
lemma exists_exportSchemas_delayed (j : ℕ) (schemas : List Str) (exporter : Exporter ι)
    (w : World κ ι) :
    ∃ k, ((∀ schema tables i, slow schema tables i = false) → k = 0) ∧
      exportSchemas m db (serialMetadata db config.outputFormat slow) config schemas exporter
          (w.delayed j) =
        (exportSchemas m db (quickMetadata db config.outputFormat) config schemas exporter w).map
          (Prod.map id (World.delayed (j + k))) := by
  induction schemas generalizing j exporter w with
  | nil => exact ⟨0, fun _ => rfl, rfl⟩
  | cons schema schemas ih =>
    obtain ⟨k, hzero, hstep⟩ := exists_exportSchema_delayed m db config slow j schema exporter w
    simp only [exportSchemas, hstep, Option.bind_eq_bind]
    cases exportSchema m db (quickMetadata db config.outputFormat) config schema exporter w with
    | none => exact ⟨k, hzero, rfl⟩
    | some p =>
      obtain ⟨r, w₁⟩ := p
      cases r with
      | error e => exact ⟨k, hzero, rfl⟩
      | ok exporter₁ =>
        obtain ⟨k', hzero', hrest⟩ := ih (j + k) exporter₁ w₁
        refine ⟨k + k', fun hquick => by rw [hzero hquick, hzero' hquick], ?_⟩
        rw [← Nat.add_assoc]
        exact hrest

omit [DecidableEq κ] [DecidableEq ι] in
/-- The errors of the loop are not about warnings. -/
lemma ne_strict_of_exportSchemas [DecidableEq κ] [DecidableEq ι] {metadata : Metadata ε}
    {schemas : List Str} {exporter : Exporter ι} {w w' : World κ ι} {e : RunError ε}
    (h : exportSchemas m db metadata config schemas exporter w = some (.error e, w')) (n : ℕ) :
    e ≠ .strict n := by
  induction schemas generalizing exporter w with
  | nil => cases h
  | cons schema schemas ih =>
    rw [exportSchemas] at h
    obtain ⟨⟨r, w₁⟩, hstep, h⟩ := Option.bind_eq_some_iff.mp h
    cases r with
    | ok exporter₁ => exact ih h
    | error e' =>
      cases h
      rw [exportSchema] at hstep
      rintro rfl
      cases hlisted : (db.getTables schema (config.exceptTables.getD [])).result with
      | error e =>
        rw [hlisted] at hstep
        cases hstep
      | ok tables =>
        rw [hlisted] at hstep
        obtain ⟨r, -, hr⟩ := Option.map_eq_some_iff.mp hstep
        cases r <;> cases hr

/-- The end of a run with `k` slow tasks, given its end without them. They are counted, and a run
that has counted something tells how much. -/
def delayedEnd (strict : Bool) (k : ℕ) :
    Except (RunError ε) Unit × World κ ι → Except (RunError ε) Unit × World κ ι
  | (.ok (), w) => (if strict ∧ 0 < k then .error (.strict k) else .ok (),
      w.delayed (if w.warn.warnings = 0 ∧ 0 < k then k + 1 else k))
  | (.error (.strict n), w) => (.error (.strict (n + k)), w.delayed k)
  | (.error e, w) => (.error e, w.delayed k)

omit [DecidableEq κ] [DecidableEq ι] in
lemma delayedEnd_zero (strict : Bool) (out : Except (RunError ε) Unit × World κ ι) :
    delayedEnd strict 0 out = out := by
  obtain ⟨r, w⟩ := out
  cases r with
  | ok => simp only [delayedEnd, Nat.lt_irrefl, and_false, if_false, World.delayed_zero]
  | error e => cases e <;> rfl

omit [DecidableEq κ] [DecidableEq ι] in
lemma delayedEnd_error {e : RunError ε} (he : ∀ n, e ≠ .strict n) (strict : Bool) (k : ℕ)
    (w : World κ ι) : delayedEnd strict k (.error e, w) = (.error e, w.delayed k) := by
  cases e with
  | strict n => exact absurd rfl (he n)
  | _ => rfl

omit [DecidableEq κ] [DecidableEq ι] in
lemma conclude_eq (strict : Bool) (w : World κ ι) :
    conclude (ε := ε) strict w =
      if w.warn.warnings = 0 then (.ok (), w)
      else (if strict then .error (.strict w.warn.warnings) else .ok (), w.delayed 1) := by
  rw [conclude]
  by_cases hzero : w.warn.warnings = 0
  · simp only [hzero, if_true, Nat.lt_irrefl, and_false, if_false]
  · have hpos : 0 < w.warn.warnings := Nat.pos_of_ne_zero hzero
    simp only [if_neg hzero, hpos, and_true]
    cases strict <;> rfl

omit [DecidableEq κ] [DecidableEq ι] in
lemma conclude_delayed (strict : Bool) (k : ℕ) (w : World κ ι) :
    conclude (ε := ε) strict (w.delayed k) = delayedEnd strict k (conclude strict w) := by
  have hwarnings : (w.delayed k).warn.warnings = w.warn.warnings + k := rfl
  rw [conclude_eq, conclude_eq, hwarnings, World.delayed_delayed]
  by_cases hzero : w.warn.warnings = 0
  · rw [if_pos hzero, delayedEnd, hzero, Nat.zero_add]
    cases k with
    | zero => simp only [if_true, Nat.lt_irrefl, and_false, if_false]
    | succ k => simp only [Nat.succ_ne_zero, if_false, Nat.succ_pos, and_true, if_true]
  · have hsum : w.warn.warnings + k ≠ 0 := fun h => hzero (Nat.eq_zero_of_add_eq_zero_right h)
    rw [if_neg hzero, if_neg hsum, Nat.add_comm k]
    cases strict with
    | true => rw [if_pos rfl, if_pos rfl, delayedEnd, World.delayed_delayed]
    | false =>
      have hafter : ¬ ((w.delayed 1).warn.warnings = 0 ∧ 0 < k) := fun h => Nat.succ_ne_zero _ h.1
      rw [if_neg Bool.false_ne_true, if_neg Bool.false_ne_true, delayedEnd, if_neg hafter,
        if_neg fun h => Bool.false_ne_true h.1, World.delayed_delayed]

variable (m db config slow) in
/-- A run from the list of schemas on. -/
lemma exists_exportCatalog_delayed (strict : Bool) (catalog : SchemaCatalog) (w : World κ ι) :
    ∃ k, ((∀ schema tables i, slow schema tables i = false) → k = 0) ∧
      exportCatalog m db (serialMetadata db config.outputFormat slow) config strict catalog w =
        (exportCatalog m db (quickMetadata db config.outputFormat) config strict catalog w).map
          (delayedEnd strict k) := by
  rw [exportCatalog, exportCatalog]
  split_ifs
  · exact ⟨0, fun _ => rfl, congrArg some (delayedEnd_zero _ _).symm⟩
  cases (createExporter config.outputFormat : Exporter ι).setup m catalog config w with
  | none => exact ⟨0, fun _ => rfl, rfl⟩
  | some p =>
    obtain ⟨exporter, w₁⟩ := p
    obtain ⟨k, hzero, hrun⟩ := exists_exportSchemas_delayed m db config slow 0
      (catalog.keys.insertionSort (· ≤ ·)) exporter w₁
    refine ⟨k, hzero, ?_⟩
    rw [World.delayed_zero, Nat.zero_add] at hrun
    simp only [Option.bind_eq_bind, Option.bind_some, hrun]
    cases hquick : exportSchemas m db (quickMetadata db config.outputFormat) config
        (catalog.keys.insertionSort (· ≤ ·)) exporter w₁ with
    | none => rfl
    | some out =>
      obtain ⟨r, w₂⟩ := out
      cases r with
      | error e =>
        exact congrArg some (delayedEnd_error (ne_strict_of_exportSchemas hquick) strict k w₂).symm
      | ok exporter₂ =>
        have hfinish : (exporter₂.finish m (w₂.delayed k)).2 =
            (exporter₂.finish m w₂).2.delayed k := by
          cases exporter₂ <;> rfl
        simp only [Option.map_some, Prod.map_apply, id_eq, Option.bind_some, Option.pure_def,
          hfinish, conclude_delayed]

variable (m) in
/-- A run with its settings. -/
lemma exists_connectAndExport_delayed (connect : RunConfig → Answer ε (DbClient ε))
    (slow : DbClient ε → OutputFormat → Str → List TableDef → ℕ → Bool) (strict : Bool)
    (config : RunConfig) (w : World κ ι) :
    ∃ k, ((∀ db format schema tables i, slow db format schema tables i = false) → k = 0) ∧
      connectAndExport m connect (fun db format => serialMetadata db format (slow db format)) strict
          config w =
        (connectAndExport m connect quickMetadata strict config w).map (delayedEnd strict k) := by
  rw [connectAndExport, connectAndExport]
  cases (connect config).result with
  | error e => exact ⟨0, fun _ => rfl, congrArg some (delayedEnd_zero _ _).symm⟩
  | ok db =>
    dsimp only
    rw [exportDatabase, exportDatabase]
    cases (db.getSchemas config).result with
    | error e => exact ⟨0, fun _ => rfl, congrArg some (delayedEnd_zero _ _).symm⟩
    | ok catalog =>
      obtain ⟨k, hzero, hrun⟩ := exists_exportCatalog_delayed m db config
        (slow db config.outputFormat) strict catalog
        ((w.warned (connect config).warnings).warned (db.getSchemas config).warnings)
      exact ⟨k, fun hquick => hzero (hquick db config.outputFormat), hrun⟩

end Slow

section Run

variable [DecidableEq κ] [DecidableEq ι]

/-- The tasks of the tables may run in any order. A run ends as the run in which they go one after
the other and the same of them are slow; and, but for the warnings about those and what `--strict`
makes of them, as the run in which none is. -/
theorem run_eq_serial (m : Machine κ ι) (connect : RunConfig → Answer ε (DbClient ε)) (cli : Cli)
    (console : Console) (w : World κ ι) (schedulers : ∀ db format, Scheduler (ε := ε) db format) :
    run m connect schedulers cli console w =
        runWith m connect (fun db format => serialMetadata db format (schedulers db format).slow)
          cli console w ∧
      ∃ k, ((∀ db format schema tables i,
            (schedulers db format).slow schema tables i = false) → k = 0) ∧
        run m connect schedulers cli console w =
          (runWith m connect quickMetadata cli console w).map (delayedEnd cli.strict k) := by
  refine ⟨run_eq_runWith schedulers, ?_⟩
  rw [run_eq_runWith, runWith, runWith]
  cases cli.intoOverrides with
  | error e => exact ⟨0, fun _ => rfl, congrArg some (delayedEnd_zero _ _).symm⟩
  | ok overrides =>
    dsimp only
    cases (loadConfig overrides).run console with
    | error e => exact ⟨0, fun _ => rfl, congrArg some (delayedEnd_zero _ _).symm⟩
    | ok p => exact exists_connectAndExport_delayed m connect _ cli.strict p.1 w

end Run

end TdExport
