import TdExport.Db.RowHelpers

/-!
# Warnings of a run

The `WARN` events of the program, and what they leave behind: the set `LOGGED` of
`db/row_helpers.rs`, and the counter `WARNINGS` of `main.rs`, to which the layer `WarnCounter` adds
one for each event.
-/

namespace TdExport

open Core

/-- A `WARN` event, or a column that could not be read, which is an event only the first time.
`ε` are the errors of the database client. -/
inductive Warning (ε : Type) where
  | missingColumn (m : MissingColumn)
  | client (message : Str)
  | skippedObject (schema kind name : Str) (error : AppError)
  | skippedExtension (schema name : Str) (error : AppError)
  | creationOrder (schema : Str)
  | metadata (schema table : Str) (error : ε)
  | slowExtract (schema table : Str)
  | schemaDdl (schema : Str) (error : ε)
  | filenameTaken (schema name : Str)
  | sameFile (schema name : Str)
  | sheetRenamed (schema name : Str)
  | unsafeSchema (schema : Str) (error : AppError)
  | unsafeTable (schema table : Str) (error : AppError)
  | complete (warnings : ℕ)
  deriving DecidableEq, Repr

variable {ε : Type}

/-- The column that could not be read, of a warning about one. -/
def Warning.missing? : Warning ε → Option MissingColumn
  | .missingColumn m => some m
  | _ => none

structure WarnState where
  logged : Finset Str := ∅
  warnings : ℕ := 0
  deriving DecidableEq

namespace WarnState

def record (st : WarnState) (w : Warning ε) : WarnState :=
  match w.missing? with
  | some m =>
    if m.key ∈ st.logged then st
    else ⟨insert m.key st.logged, st.warnings + 1⟩
  | none => { st with warnings := st.warnings + 1 }

def recordAll (st : WarnState) (ws : List (Warning ε)) : WarnState := ws.foldl record st

variable {st : WarnState} {w : Warning ε} {ws ws' : List (Warning ε)}

@[simp] lemma recordAll_nil : st.recordAll ([] : List (Warning ε)) = st := rfl

@[simp] lemma recordAll_cons : st.recordAll (w :: ws) = (st.record w).recordAll ws := rfl

@[simp] lemma recordAll_append : st.recordAll (ws ++ ws') = (st.recordAll ws).recordAll ws' :=
  List.foldl_append

lemma record_of_missing {m : MissingColumn} (hw : w.missing? = some m) :
    st.record w =
      if m.key ∈ st.logged then st else ⟨insert m.key st.logged, st.warnings + 1⟩ := by
  rw [record, hw]

lemma record_of_not_missing (hw : w.missing? = none) :
    st.record w = { st with warnings := st.warnings + 1 } := by
  rw [record, hw]

/-! ### The order of the events -/

lemma record_right_comm (st : WarnState) (w w' : Warning ε) :
    (st.record w).record w' = (st.record w').record w := by
  cases hw : w.missing? with
  | none =>
    cases hw' : w'.missing? with
    | none => simp only [record_of_not_missing hw, record_of_not_missing hw']
    | some m' =>
      simp only [record_of_not_missing hw, record_of_missing hw']
      split_ifs <;> rfl
  | some m =>
    cases hw' : w'.missing? with
    | none =>
      simp only [record_of_not_missing hw', record_of_missing hw]
      split_ifs <;> rfl
    | some m' =>
      by_cases hkey : m.key = m'.key
      · simp only [record_of_missing hw, record_of_missing hw', hkey]
      · simp only [record_of_missing hw, record_of_missing hw']
        split_ifs <;> simp_all [Finset.insert_comm, eq_comm]

/-- The set and the counter do not depend on the order of the events. -/
lemma recordAll_perm (h : ws.Perm ws') : st.recordAll ws = st.recordAll ws' :=
  h.foldl_eq' (fun _ _ _ _ z => record_right_comm z _ _) st

/-! ### What is counted -/

lemma warnMissingColumnOnce_eq (log : WarnLog) (m : MissingColumn) :
    warnMissingColumnOnce log m =
      if m.key ∈ log.seen then log else ⟨insert m.key log.seen, log.events ++ [m]⟩ := rfl

/-- Each key counts once, and every other event counts. -/
lemma recordAll_eq (ws : List (Warning ε)) (log : WarnLog) (k : ℕ) :
    (⟨log.seen, log.events.length + k⟩ : WarnState).recordAll ws =
      ⟨(warnAll log (ws.filterMap Warning.missing?)).seen,
        (warnAll log (ws.filterMap Warning.missing?)).events.length +
          (k + (ws.filter fun w => w.missing?.isNone).length)⟩ := by
  induction ws generalizing log k with
  | nil => rfl
  | cons w ws ih =>
    cases hw : w.missing? with
    | none =>
      rw [recordAll_cons, record_of_not_missing hw, List.filterMap_cons_none hw,
        List.filter_cons_of_pos (by rw [hw]; rfl), List.length_cons]
      rw [Nat.add_assoc, ih, Nat.add_right_comm k 1, Nat.add_assoc k]
    | some m =>
      have hcalls : warnAll log (m :: ws.filterMap Warning.missing?) =
          warnAll (warnMissingColumnOnce log m) (ws.filterMap Warning.missing?) := rfl
      rw [recordAll_cons, record_of_missing hw, List.filterMap_cons_some hw,
        List.filter_cons_of_neg (by rw [hw]; simp), hcalls, ← ih]
      by_cases hkey : m.key ∈ log.seen
      · rw [if_pos hkey, warnMissingColumnOnce_eq, if_pos hkey]
      · rw [if_neg hkey, warnMissingColumnOnce_eq, if_neg hkey, List.length_append,
          List.length_singleton, Nat.add_right_comm _ 1 k]

/-- The counter, from the start of the program: the keys of the columns that could not be read,
and the other events. -/
theorem warnings_recordAll (ws : List (Warning ε)) :
    (({} : WarnState).recordAll ws).warnings =
      ((ws.filterMap Warning.missing?).map MissingColumn.key).toFinset.card +
        (ws.filter fun w => w.missing?.isNone).length := by
  have h := congrArg warnings (recordAll_eq ws {} 0)
  rw [length_events_warnAll, Nat.zero_add] at h
  exact h

lemma warnings_le_record : st.warnings ≤ (st.record w).warnings := by
  rw [record]
  split
  · split_ifs
    · exact le_rfl
    · exact Nat.le_succ _
  · exact Nat.le_succ _

lemma warnings_le_recordAll : st.warnings ≤ (st.recordAll ws).warnings := by
  induction ws generalizing st with
  | nil => exact le_rfl
  | cons w ws ih => exact warnings_le_record.trans ih

/-- Nothing was counted only when nothing happened. -/
lemma warnings_recordAll_eq_zero_iff : (({} : WarnState).recordAll ws).warnings = 0 ↔ ws = [] := by
  constructor
  · intro h
    cases ws with
    | nil => rfl
    | cons w ws =>
      have hfirst : (({} : WarnState).record w).warnings = 1 := by
        rw [record]
        split <;> rfl
      have hle : 1 ≤ (({} : WarnState).recordAll (w :: ws)).warnings :=
        hfirst.symm.le.trans warnings_le_recordAll
      rw [h] at hle
      exact absurd hle (Nat.not_succ_le_zero 0)
  · rintro rfl
    rfl

end WarnState

end TdExport
