import TdExport.Config.Basic

/-!
# Flags and prompts of the list settings

The list settings `target_db` and `except_tables` have two sources: a flag, whose value is cut at
the commas, and a typed line, which goes through `parse_comma_separated`.
-/

namespace TdExport

open Core

/-- A sequence of two steps succeeds when both do. -/
lemma Ask.bind_eq_ok {α β : Type} {x : Ask α} {f : α → Ask β} {c c' : Console} {b : β} :
    (x >>= f) c = .ok (b, c') ↔ ∃ a c₁, x c = .ok (a, c₁) ∧ f a c₁ = .ok (b, c') := by
  show (x c >>= fun p => f p.1 p.2) = .ok (b, c') ↔ _
  cases h : x c with
  | error e => simp [bind, Except.bind]
  | ok p =>
    obtain ⟨a, c₁⟩ := p
    simp [bind, Except.bind]

/-! ### Items -/

/-- White space at the end of the last item does not count. -/
lemma parseCommaSeparated_concat {c : Char} (hc : isWhitespace c = true) (s : Str) :
    parseCommaSeparated (s ++ [c]) = parseCommaSeparated s := by
  have hne : c ≠ ',' := by
    rintro rfl
    revert hc
    decide
  obtain ⟨init, last, hs, hsc⟩ := splitOn_concat hne s
  simp only [parseCommaSeparated, hs, hsc, List.map_append, List.map_cons, List.map_nil,
    trim_concat hc]

/-- The line breaks that the prompt removes do not count either. -/
lemma parseCommaSeparated_trimEndMatches {cs : List Char} (hcs : ∀ c ∈ cs, isWhitespace c = true)
    (s : Str) : parseCommaSeparated (trimEndMatches cs s) = parseCommaSeparated s := by
  induction s using List.reverseRecOn with
  | nil => rfl
  | append_singleton s c ih =>
    by_cases hc : c ∈ cs
    · rw [parseCommaSeparated_concat (hcs c hc), ← ih, trimEndMatches, trimEndMatches,
        List.rdropWhile_concat_pos _ _ _ (by simpa using hc)]
    · rw [trimEndMatches, List.rdropWhile_concat_neg _ _ _ (by simpa using hc)]

/-- An item that `parse_comma_separated` keeps unchanged. -/
def IsPlainItem (item : Str) : Prop := item ≠ [] ∧ trim item = item

instance (item : Str) : Decidable (IsPlainItem item) := inferInstanceAs (Decidable (_ ∧ _))

lemma filter_map_trim_eq_self_iff (items : List Str) :
    (items.map trim).filter (· ≠ []) = items ↔ ∀ item ∈ items, IsPlainItem item := by
  have hmap : items.map trim = items ↔ ∀ item ∈ items, trim item = item := by
    simpa using List.map_inj_left (f := trim) (g := id) (l := items)
  constructor
  · intro h item hitem
    have hall : ∀ x ∈ items.map trim, decide (x ≠ []) = true := by
      rw [← List.length_filter_eq_length_iff, congrArg List.length h, List.length_map]
    rw [List.filter_eq_self.mpr hall] at h
    have htrim := hmap.mp h item hitem
    refine ⟨?_, htrim⟩
    simpa [htrim] using hall (trim item) (List.mem_map_of_mem hitem)
  · intro h
    rw [hmap.mpr fun item hi => (h item hi).2, List.filter_eq_self]
    intro item hi
    simpa using (h item hi).1

/-- Cutting at the commas is all that `parse_comma_separated` does to plain items. -/
lemma valueDelimiter_eq_parseCommaSeparated_iff (s : Str) :
    valueDelimiter s = parseCommaSeparated s ↔ ∀ item ∈ s.splitOn ',', IsPlainItem item := by
  have hne := List.splitOn_ne_nil ',' s
  rw [← filter_map_trim_eq_self_iff, valueDelimiter, parseCommaSeparated]
  constructor
  · intro h
    split_ifs at h with hitems
    exact (Option.some_inj.mp h).symm
  · intro h
    simp only [h, if_neg hne]

/-! ### The two sources of a list setting -/

lemma resolveList_valueDelimiter (prompt s : Str) (c : Console) :
    resolveList prompt (valueDelimiter s) c = .ok (valueDelimiter s, c) := by
  have hne := List.splitOn_ne_nil ',' s
  cases h : s.splitOn ',' with
  | nil => exact absurd h hne
  | cons v vs =>
    rw [valueDelimiter, h]
    rfl

/-- The next prompt reads the line `s`. -/
def NextLine (c : Console) (s : Str) : Prop := ∃ rest, c.lines = .ok (writeln s) :: rest

lemma promptAndRead_of_lines (prompt : Str) {line : Str} {rest : List (Except Str Str)}
    {c : Console} (h : c.lines = .ok line :: rest) :
    promptAndRead prompt c =
      .ok (trimEndMatches ['\n', '\r'] line,
        { c with lines := rest, shown := c.shown ++ prompt }) := by
  obtain ⟨lines, password, shown⟩ := c
  cases h
  rfl

lemma resolveList_none_of_nextLine (prompt : Str) {s : Str} {c : Console} (hline : NextLine c s) :
    ∃ c', resolveList prompt none c = .ok (parseCommaSeparated s, c') := by
  obtain ⟨rest, hrest⟩ := hline
  have hread := promptAndRead_of_lines prompt hrest
  have hitems : parseCommaSeparated (trimEndMatches ['\n', '\r'] (writeln s)) =
      parseCommaSeparated s := by
    rw [parseCommaSeparated_trimEndMatches (by simp [isWhitespace]), writeln,
      parseCommaSeparated_concat (by decide)]
  rw [← hitems]
  exact ⟨_, (Ask.bind_eq_ok (f := fun line => pure (parseCommaSeparated line))).mpr
    ⟨_, _, hread, rfl⟩⟩

/-- What a successful run went through before it returned its settings. -/
lemma loadConfig_eq_ok {o : CliOverrides} {c c' : Console} {config : RunConfig} :
    loadConfig o c = .ok (config, c') ↔
      ∃ conn c₁ targetDb c₂ exceptTables,
        loadConnection o c = .ok (conn, c₁) ∧
        resolveList targetDbPrompt o.targetDb c₁ = .ok (targetDb, c₂) ∧
        resolveList exceptTablesPrompt o.exceptTables c₂ = .ok (exceptTables, c') ∧
        config = { conn with targetDb, exceptTables } := by
  simp only [loadConfig, Ask.bind_eq_ok]
  constructor
  · rintro ⟨conn, c₁, hconn, targetDb, c₂, htarget, exceptTables, c₃, hexcept, hpure⟩
    cases hpure
    exact ⟨conn, c₁, targetDb, c₂, exceptTables, hconn, htarget, hexcept, rfl⟩
  · rintro ⟨conn, c₁, targetDb, c₂, exceptTables, hconn, htarget, hexcept, rfl⟩
    exact ⟨conn, c₁, hconn, targetDb, c₂, htarget, exceptTables, c', hexcept, rfl⟩

/-- `s` is typed at the prompt for `target_db`: the line after the connection settings. -/
def TypesTargetDb (o : CliOverrides) (c : Console) (s : Str) : Prop :=
  ∃ conn c₁, loadConnection o c = .ok (conn, c₁) ∧ NextLine c₁ s

/-- `s` is typed at the prompt for `except_tables`: the line after `target_db` is settled. -/
def TypesExceptTables (o : CliOverrides) (c : Console) (s : Str) : Prop :=
  ∃ conn c₁ targetDb c₂, loadConnection o c = .ok (conn, c₁) ∧
    resolveList targetDbPrompt o.targetDb c₁ = .ok (targetDb, c₂) ∧ NextLine c₂ s

/-- Every run with `--target-db s` and every run in which `s` is typed at its prompt end with the
same `target_db`, that of `parse_comma_separated`. -/
def TargetDbAgrees (s : Str) : Prop :=
  ∀ (o : CliOverrides) c config c' cTyped configTyped cTyped',
    loadConfig { o with targetDb := valueDelimiter s } c = .ok (config, c') →
    loadConfig { o with targetDb := none } cTyped = .ok (configTyped, cTyped') →
    TypesTargetDb { o with targetDb := none } cTyped s →
    config.targetDb = configTyped.targetDb ∧ configTyped.targetDb = parseCommaSeparated s

/-- The same for `--except-tables s`. -/
def ExceptTablesAgrees (s : Str) : Prop :=
  ∀ (o : CliOverrides) c config c' cTyped configTyped cTyped',
    loadConfig { o with exceptTables := valueDelimiter s } c = .ok (config, c') →
    loadConfig { o with exceptTables := none } cTyped = .ok (configTyped, cTyped') →
    TypesExceptTables { o with exceptTables := none } cTyped s →
    config.exceptTables = configTyped.exceptTables ∧
      configTyped.exceptTables = parseCommaSeparated s

section

variable {o : CliOverrides} {c c' : Console} {config : RunConfig} {s : Str}

lemma targetDb_of_flag
    (h : loadConfig { o with targetDb := valueDelimiter s } c = .ok (config, c')) :
    config.targetDb = valueDelimiter s := by
  obtain ⟨conn, c₁, targetDb, c₂, exceptTables, -, htarget, -, rfl⟩ := loadConfig_eq_ok.mp h
  rw [resolveList_valueDelimiter] at htarget
  cases htarget
  rfl

lemma exceptTables_of_flag
    (h : loadConfig { o with exceptTables := valueDelimiter s } c = .ok (config, c')) :
    config.exceptTables = valueDelimiter s := by
  obtain ⟨conn, c₁, targetDb, c₂, exceptTables, -, -, hexcept, rfl⟩ := loadConfig_eq_ok.mp h
  rw [resolveList_valueDelimiter] at hexcept
  cases hexcept
  rfl

lemma targetDb_of_typed (h : loadConfig { o with targetDb := none } c = .ok (config, c'))
    (hs : TypesTargetDb { o with targetDb := none } c s) :
    config.targetDb = parseCommaSeparated s := by
  obtain ⟨conn, c₁, targetDb, c₂, exceptTables, hconn, htarget, -, rfl⟩ := loadConfig_eq_ok.mp h
  obtain ⟨_, _, hconn', hline⟩ := hs
  cases hconn.symm.trans hconn'
  obtain ⟨c₃, hresolve⟩ := resolveList_none_of_nextLine targetDbPrompt hline
  cases htarget.symm.trans hresolve
  rfl

lemma exceptTables_of_typed (h : loadConfig { o with exceptTables := none } c = .ok (config, c'))
    (hs : TypesExceptTables { o with exceptTables := none } c s) :
    config.exceptTables = parseCommaSeparated s := by
  obtain ⟨conn, c₁, targetDb, c₂, exceptTables, hconn, htarget, hexcept, rfl⟩ :=
    loadConfig_eq_ok.mp h
  obtain ⟨_, _, _, _, hconn', htarget', hline⟩ := hs
  cases hconn.symm.trans hconn'
  cases htarget.symm.trans htarget'
  obtain ⟨c₃, hresolve⟩ := resolveList_none_of_nextLine exceptTablesPrompt hline
  cases hexcept.symm.trans hresolve
  rfl

end

/-! ### When the two sources agree -/

/-- Every line still to be read can be read. -/
def Readable (c : Console) : Prop := ∀ line ∈ c.lines, ∃ s, line = .ok s

lemma resolveList_of_readable {c : Console} (hc : Readable c) (prompt : Str)
    (override : Option (List Str)) :
    ∃ r c', resolveList prompt override c = .ok (r, c') ∧ Readable c' := by
  have hask : ∃ r c', resolveList prompt none c = .ok (r, c') ∧ Readable c' := by
    obtain ⟨lines, password, shown⟩ := c
    cases lines with
    | nil => exact ⟨_, _, rfl, by simp [Readable]⟩
    | cons line rest =>
      obtain ⟨s, rfl⟩ := hc line List.mem_cons_self
      exact ⟨_, _, rfl, fun line hline => hc line (List.mem_cons_of_mem _ hline)⟩
  match override with
  | some (v :: vs) => exact ⟨_, c, rfl, hc⟩
  | some [] => exact hask
  | none => exact hask

/-- A run succeeds when the connection settings do and every line can be read. -/
lemma loadConfig_of_readable {o : CliOverrides} {c c₁ : Console} {conn : RunConfig}
    (hconn : loadConnection o c = .ok (conn, c₁)) (hc : Readable c₁) :
    ∃ config c', loadConfig o c = .ok (config, c') := by
  obtain ⟨targetDb, c₂, htarget, hc₂⟩ := resolveList_of_readable hc targetDbPrompt o.targetDb
  obtain ⟨exceptTables, c₃, hexcept, -⟩ :=
    resolveList_of_readable hc₂ exceptTablesPrompt o.exceptTables
  exact ⟨_, _, loadConfig_eq_ok.mpr
    ⟨conn, c₁, targetDb, c₂, exceptTables, hconn, htarget, hexcept, rfl⟩⟩

/-- Flags for everything but the two lists. -/
def connectionFlags : CliOverrides where
  outputFormat := some .sql
  dbType := some .mySql
  endpoint := some "h"
  port := some 3306
  user := some "u"

/-- A terminal on which `s` is typed at the first prompt. -/
def typing (s : Str) : Console where
  lines := [.ok (writeln s)]
  password := .ok []

lemma readable_typing (s shown : Str) : Readable { typing s with shown := shown } := by
  intro line hline
  rw [typing, List.mem_singleton] at hline
  exact ⟨_, hline⟩

/-- With these flags nothing is asked for before the lists. -/
lemma loadConnection_connectionFlags (t e : Option (List Str)) (s : Str) :
    ∃ conn shown, loadConnection { connectionFlags with targetDb := t, exceptTables := e }
      (typing s) = .ok (conn, { typing s with shown := shown }) :=
  ⟨_, _, rfl⟩

lemma loadConfig_connectionFlags (t e : Option (List Str)) (s : Str) :
    ∃ config c', loadConfig { connectionFlags with targetDb := t, exceptTables := e } (typing s) =
      .ok (config, c') := by
  obtain ⟨conn, shown, hconn⟩ := loadConnection_connectionFlags t e s
  exact loadConfig_of_readable hconn (readable_typing s shown)

lemma valueDelimiter_eq_of_targetDbAgrees {s : Str} (h : TargetDbAgrees s) :
    valueDelimiter s = parseCommaSeparated s := by
  obtain ⟨config, c', hflag⟩ := loadConfig_connectionFlags (valueDelimiter s) none s
  obtain ⟨configTyped, cTyped', htyped⟩ := loadConfig_connectionFlags none none s
  obtain ⟨conn, shown, hconn⟩ := loadConnection_connectionFlags none none s
  have hs : TypesTargetDb { connectionFlags with targetDb := none } (typing s) s :=
    ⟨conn, _, hconn, [], rfl⟩
  obtain ⟨heq, hparse⟩ := h connectionFlags _ _ _ _ _ _ hflag htyped hs
  rw [← targetDb_of_flag hflag, heq, hparse]

lemma valueDelimiter_eq_of_exceptTablesAgrees {s : Str} (h : ExceptTablesAgrees s) :
    valueDelimiter s = parseCommaSeparated s := by
  let t : Option (List Str) := some ["d"]
  obtain ⟨config, c', hflag⟩ := loadConfig_connectionFlags t (valueDelimiter s) s
  obtain ⟨configTyped, cTyped', htyped⟩ := loadConfig_connectionFlags t none s
  obtain ⟨conn, shown, hconn⟩ := loadConnection_connectionFlags t none s
  have hs : TypesExceptTables { connectionFlags with targetDb := t, exceptTables := none }
      (typing s) s :=
    ⟨conn, _, t, _, hconn, rfl, [], rfl⟩
  obtain ⟨heq, hparse⟩ := h { connectionFlags with targetDb := t } _ _ _ _ _ _ hflag htyped hs
  rw [← exceptTables_of_flag (o := { connectionFlags with targetDb := t }) hflag, heq, hparse]

lemma targetDbAgrees_iff_eq (s : Str) :
    TargetDbAgrees s ↔ valueDelimiter s = parseCommaSeparated s := by
  refine ⟨valueDelimiter_eq_of_targetDbAgrees, ?_⟩
  intro h o c config c' cTyped configTyped cTyped' hflag htyped hs
  rw [targetDb_of_flag hflag, targetDb_of_typed htyped hs]
  exact ⟨h, rfl⟩

lemma exceptTablesAgrees_iff_eq (s : Str) :
    ExceptTablesAgrees s ↔ valueDelimiter s = parseCommaSeparated s := by
  refine ⟨valueDelimiter_eq_of_exceptTablesAgrees, ?_⟩
  intro h o c config c' cTyped configTyped cTyped' hflag htyped hs
  rw [exceptTables_of_flag hflag, exceptTables_of_typed htyped hs]
  exact ⟨h, rfl⟩

/-- The flag and the prompt of a list setting agree on `s` exactly when every item between its
commas is a plain one: neither empty nor with white space at an end. -/
theorem listSettings_agree_iff (s : Str) :
    (TargetDbAgrees s ↔ ∀ item ∈ s.splitOn ',', IsPlainItem item) ∧
      (ExceptTablesAgrees s ↔ ∀ item ∈ s.splitOn ',', IsPlainItem item) := by
  rw [targetDbAgrees_iff_eq, exceptTablesAgrees_iff_eq]
  exact ⟨valueDelimiter_eq_parseCommaSeparated_iff s, valueDelimiter_eq_parseCommaSeparated_iff s⟩

/-- The space after a comma stays in the item when the list is given as a flag. -/
theorem listSettings_disagree :
    ¬ ∀ s : Str, (∃ item ∈ s.splitOn ',', trim item ≠ []) →
      TargetDbAgrees s ∧ ExceptTablesAgrees s := by
  intro h
  obtain ⟨htarget, -⟩ := h "a, b" (by decide)
  rw [targetDbAgrees_iff_eq] at htarget
  revert htarget
  decide

end TdExport
