import TdExport.Core.Once
import TdExport.Model.Basic

/-!
# Warnings about unreadable columns

`db/row_helpers.rs`. A column that cannot be read is replaced by its default and reported with a
`WARN` event. The global set `LOGGED` keeps a report from being repeated.
-/

namespace TdExport

open Core

/-- The fields of one call of `warn_missing_column_once`, which are also those of the event. -/
structure MissingColumn where
  schema : Str
  table : Str
  column : Str
  error : Str
  deriving DecidableEq, Repr

namespace MissingColumn

/-- What the event is about. -/
def triple (m : MissingColumn) : Str × Str × Str := (m.schema, m.table, m.column)

/-- The key of the set `LOGGED`: `{schema}|{table}|{column}`. -/
def key (m : MissingColumn) : Str := m.schema ++ "|" ++ m.table ++ "|" ++ m.column

/-- The parts of the triple, each cut at every `|`, in one row. -/
def pieces (m : MissingColumn) : List Str :=
  m.schema.splitOn '|' ++ m.table.splitOn '|' ++ m.column.splitOn '|'

end MissingColumn

/-- The set `LOGGED`, and the `WARN` events emitted so far. -/
abbrev WarnLog := OnceLog Str MissingColumn

/-- One call, atomic under the lock of `LOGGED`. -/
def warnMissingColumnOnce (log : WarnLog) (m : MissingColumn) : WarnLog :=
  let key := m.schema ++ "|" ++ m.table ++ "|" ++ m.column
  if key ∈ log.seen then log else ⟨insert key log.seen, log.events ++ [m]⟩

/-- The calls one after the other, in the order in which they took the lock. -/
def warnAll (log : WarnLog) (calls : List MissingColumn) : WarnLog :=
  calls.foldl warnMissingColumnOnce log

lemma warnAll_eq_reportAll (log : WarnLog) (calls : List MissingColumn) :
    warnAll log calls = log.reportAll MissingColumn.key calls := rfl

lemma MissingColumn.splitOn_key (m : MissingColumn) : m.key.splitOn '|' = m.pieces := by
  show (m.schema ++ ['|'] ++ m.table ++ ['|'] ++ m.column).splitOn '|' = _
  simp only [List.append_assoc, List.nil_append, List.cons_append,
    List.splitOn_append_cons_self, pieces]

/-- Two keys are equal when the rows of pieces are. -/
lemma MissingColumn.key_eq_key_iff {a b : MissingColumn} :
    a.key = b.key ↔ a.pieces = b.pieces := by
  constructor
  · intro h
    rw [← splitOn_key, ← splitOn_key, h]
  · intro h
    calc a.key = ['|'].intercalate a.pieces := by
          rw [← splitOn_key, List.intercalate_splitOn]
      _ = ['|'].intercalate b.pieces := by rw [h]
      _ = b.key := by rw [← splitOn_key, List.intercalate_splitOn]

lemma length_events_warnAll (calls : List MissingColumn) :
    (warnAll {} calls).events.length = (calls.map MissingColumn.key).toFinset.card := by
  rw [warnAll_eq_reportAll, OnceLog.length_events_reportAll]

/-- The keys of a sequence of calls are counted by their rows of pieces. -/
lemma card_keys_eq_card_triples_iff (calls : List MissingColumn) :
    (calls.map MissingColumn.key).toFinset.card =
        (calls.map MissingColumn.triple).toFinset.card ↔
      ∀ a ∈ calls, ∀ b ∈ calls, a.pieces = b.pieces → a.triple = b.triple := by
  have hkey : calls.map MissingColumn.key =
      (calls.map MissingColumn.triple).map fun t : Str × Str × Str =>
        t.1 ++ ['|'] ++ t.2.1 ++ ['|'] ++ t.2.2 := by
    rw [List.map_map]
    rfl
  rw [hkey, card_map_toFinset_eq_iff]
  constructor
  · intro h a ha b hb hab
    apply h _ (List.mem_map_of_mem ha) _ (List.mem_map_of_mem hb)
    exact MissingColumn.key_eq_key_iff.mpr hab
  · intro h x hx y hy hxy
    obtain ⟨a, ha, rfl⟩ := List.mem_map.mp hx
    obtain ⟨b, hb, rfl⟩ := List.mem_map.mp hy
    exact h a ha b hb (MissingColumn.key_eq_key_iff.mp hxy)

/-- Every missing column of a sequence of calls is reported once exactly when no two different
triples of the sequence give the same row of pieces. -/
theorem warnAll_counts_triples_iff (calls : List MissingColumn) :
    (warnAll {} calls).events.length = (calls.map MissingColumn.triple).toFinset.card ↔
      ∀ a ∈ calls, ∀ b ∈ calls, a.pieces = b.pieces → a.triple = b.triple := by
  rw [length_events_warnAll]
  exact card_keys_eq_card_triples_iff calls

/-- A `|` in a name moves between the parts of the key: the second warning is lost. -/
theorem warnAll_misses_triple :
    ¬ ∀ calls : List MissingColumn,
      (warnAll {} calls).events.length = (calls.map MissingColumn.triple).toFinset.card := by
  intro h
  have := h [⟨"a|b", "c", "column_type", "e"⟩, ⟨"a", "b|c", "column_type", "e"⟩]
  revert this
  decide

end TdExport
