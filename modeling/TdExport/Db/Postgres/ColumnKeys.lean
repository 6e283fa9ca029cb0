import TdExport.Core.Maxima
import TdExport.Model.Basic

/-!
# The keys of the columns

`PgClient::get_columns` of `db/postgres/mod.rs`: the key of a column is found among the rows of all
indexes that the column belongs to. The query does not sort its rows.
-/

namespace TdExport.Postgres

open Core

/-! ### The rows -/

/-- A column among the key columns of an index; `position` counts from 1. -/
structure KeyRow where
  columnName : Str
  isPrimary : Bool
  isUnique : Bool
  keyCount : ℤ
  position : ℤ
  deriving DecidableEq, Repr

/-- The key that one row gives to its column; `none` when the row is passed over. -/
def KeyRow.newKey (row : KeyRow) : Option Str :=
  if row.isPrimary then some "PRI"
  else if row.position = 1 then
    if row.isUnique ∧ row.keyCount = 1 then some "UNI" else some "MUL"
  else none

def priority (key : Str) : ℕ :=
  if key = "PRI".toList then 3
  else if key = "UNI".toList then 2
  else if key = "MUL".toList then 1
  else 0

/-- A map from the names of columns to their keys. -/
abbrev ColumnKeys := Str → Option Str

/-- A key is overwritten by a key of higher priority only. -/
def shouldUpdate (existing : Option Str) (newKey : Str) : Bool :=
  match existing with
  | none => true
  | some existing => priority existing < priority newKey

/-- One turn of the loop. -/
def updateKey (keys : ColumnKeys) (row : KeyRow) : ColumnKeys :=
  match row.newKey with
  | none => keys
  | some newKey =>
    if shouldUpdate (keys row.columnName) newKey then
      Function.update keys row.columnName (some newKey)
    else keys

def columnKeys (rows : List KeyRow) : ColumnKeys := rows.foldl updateKey fun _ => none

/-! ### The order of the keys -/

/-- The keys of columns, the lowest first. -/
inductive ColumnKey
  | mul
  | uni
  | pri
  deriving DecidableEq, Repr

namespace ColumnKey

def rank : ColumnKey → ℕ
  | mul => 1
  | uni => 2
  | pri => 3

lemma rank_injective : Function.Injective rank := by
  intro k k' h
  cases k <;> cases k' <;> first | rfl | cases h

instance : LinearOrder ColumnKey := LinearOrder.lift' rank rank_injective

example : mul < uni ∧ uni < pri := by decide

def text : ColumnKey → Str
  | mul => "MUL"
  | uni => "UNI"
  | pri => "PRI"

@[simp] lemma priority_text (k : ColumnKey) : priority k.text = k.rank := by
  cases k <;> decide

end ColumnKey

/-- What a row says about its column: the primary key above all, then the first column of an index,
which counts more when it is a unique key of its own. -/
def KeyRow.kind (row : KeyRow) : Option ColumnKey :=
  if row.isPrimary then some .pri
  else if row.position = 1 ∧ row.isUnique ∧ row.keyCount = 1 then some .uni
  else if row.position = 1 then some .mul
  else none

lemma KeyRow.newKey_eq (row : KeyRow) : row.newKey = row.kind.map ColumnKey.text := by
  unfold newKey kind
  split_ifs <;> simp_all [ColumnKey.text]

/-- The entry that a row makes. -/
def KeyRow.entry (row : KeyRow) : Option (Str × ColumnKey) :=
  row.kind.map fun kind => (row.columnName, kind)

/-! ### The map of the keys -/

/-- The map of the texts of the keys. -/
def texts (m : Str → WithBot ColumnKey) : ColumnKeys :=
  fun column => (m column).recBotCoe none fun kind => some kind.text

variable {m : Str → WithBot ColumnKey} {column : Str} {kind : ColumnKey}

lemma texts_of_eq_bot (h : m column = ⊥) : texts m column = none := by
  rw [texts, h]
  rfl

lemma texts_of_eq_coe (h : m column = kind) : texts m column = some kind.text := by
  rw [texts, h]
  rfl

/-- A key is overwritten exactly when the new one is greater. -/
lemma texts_raise_self (m : Str → WithBot ColumnKey) (column : Str) (kind : ColumnKey) :
    texts (raise m (column, kind)) column =
      if shouldUpdate (texts m column) kind.text then some kind.text else texts m column := by
  have hraise : raise m (column, kind) column = max (m column) kind := by
    rw [raise_apply, if_pos rfl]
  cases hm : m column with
  | bot =>
    rw [hm, max_eq_right bot_le] at hraise
    rw [texts_of_eq_bot hm, texts_of_eq_coe hraise]
    rfl
  | coe existing =>
    rw [hm, ← WithBot.coe_max] at hraise
    have hupdate : shouldUpdate (some existing.text) kind.text = true ↔ existing < kind := by
      simp only [shouldUpdate, ColumnKey.priority_text, decide_eq_true_eq]
      rfl
    rw [texts_of_eq_coe hm, texts_of_eq_coe hraise]
    by_cases hlt : existing < kind
    · rw [if_pos (hupdate.mpr hlt), max_eq_right hlt.le]
    · rw [if_neg (mt hupdate.mp hlt), max_eq_left (not_lt.mp hlt)]

lemma eq_update_texts_raise (m : Str → WithBot ColumnKey) (column : Str) (kind : ColumnKey) :
    texts (raise m (column, kind)) =
      Function.update (texts m) column (texts (raise m (column, kind)) column) := by
  funext other
  by_cases h : column = other
  · rw [← h, Function.update_self]
  · rw [Function.update_of_ne (Ne.symm h), texts, texts, raise_apply, if_neg h]

lemma updateKey_of_eq_some {keys : ColumnKeys} {row : KeyRow} {newKey : Str}
    (h : row.newKey = some newKey) :
    updateKey keys row = Function.update keys row.columnName
      (if shouldUpdate (keys row.columnName) newKey then some newKey
        else keys row.columnName) := by
  simp only [updateKey, h]
  split_ifs
  · rfl
  · rw [Function.update_eq_self]

/-- One turn of the loop raises the entry of the column. -/
lemma updateKey_texts (m : Str → WithBot ColumnKey) (row : KeyRow) :
    updateKey (texts m) row =
      match row.entry with
      | none => texts m
      | some entry => texts (raise m entry) := by
  have hkey := row.newKey_eq
  unfold KeyRow.entry
  cases hkind : row.kind with
  | none =>
    rw [hkind, Option.map_none] at hkey
    simp only [updateKey, hkey, Option.map_none]
  | some kind =>
    rw [hkind, Option.map_some] at hkey
    rw [updateKey_of_eq_some hkey, ← texts_raise_self]
    exact (eq_update_texts_raise m row.columnName kind).symm

/-- The loop keeps the greatest key of each column. -/
theorem columnKeys_eq_texts (rows : List KeyRow) :
    columnKeys rows = texts (maxima (rows.filterMap KeyRow.entry)) := by
  induction rows using List.reverseRecOn with
  | nil => rfl
  | append_singleton rows row ih =>
    have hstep : columnKeys (rows ++ [row]) = updateKey (columnKeys rows) row := by
      rw [columnKeys, List.foldl_append]
      rfl
    rw [hstep, ih, updateKey_texts, List.filterMap_append]
    cases hentry : row.entry with
    | none => simp [hentry]
    | some entry =>
      rw [List.filterMap_cons_some hentry, List.filterMap_nil, maxima_concat]

/-- The keys that the rows give to a column. -/
def kindsOf (rows : List KeyRow) (column : Str) : Set ColumnKey :=
  {kind | ∃ row ∈ rows, row.columnName = column ∧ row.kind = some kind}

lemma mem_filterMap_entry {rows : List KeyRow} :
    (column, kind) ∈ rows.filterMap KeyRow.entry ↔ kind ∈ kindsOf rows column := by
  simp only [List.mem_filterMap, KeyRow.entry, Option.map_eq_some_iff, Prod.mk.injEq, kindsOf]
  constructor
  · rintro ⟨row, hrow, kind', hkind, hcolumn, rfl⟩
    exact ⟨row, hrow, hcolumn, hkind⟩
  · rintro ⟨row, hrow, hcolumn, hkind⟩
    exact ⟨row, hrow, kind, hkind, hcolumn, rfl⟩

lemma columnKeys_eq_some_iff {rows : List KeyRow} {key : Str} :
    columnKeys rows column = some key ↔
      ∃ kind, IsGreatest (kindsOf rows column) kind ∧ key = kind.text := by
  have hgreatest : ∀ kind : ColumnKey,
      maxima (rows.filterMap KeyRow.entry) column = kind ↔
      IsGreatest (kindsOf rows column) kind := by
    intro kind
    rw [maxima_eq_coe_iff]
    simp only [mem_filterMap_entry]
    rfl
  rw [columnKeys_eq_texts]
  cases hm : maxima (rows.filterMap KeyRow.entry) column with
  | bot =>
    rw [texts_of_eq_bot hm]
    refine iff_of_false (by simp) ?_
    rintro ⟨kind, hkind, -⟩
    rw [← hgreatest, hm] at hkind
    exact WithBot.bot_ne_coe hkind
  | coe highest =>
    rw [texts_of_eq_coe hm, Option.some_inj]
    have hhighest := (hgreatest highest).mp hm
    constructor
    · rintro rfl
      exact ⟨highest, hhighest, rfl⟩
    · rintro ⟨kind, hkind, rfl⟩
      rw [hhighest.unique hkind]

lemma columnKeys_eq_none_iff {rows : List KeyRow} :
    columnKeys rows column = none ↔
      ∀ row ∈ rows, row.columnName = column → row.kind = none := by
  have hbot : columnKeys rows column = none ↔
      maxima (rows.filterMap KeyRow.entry) column = ⊥ := by
    rw [columnKeys_eq_texts]
    cases hm : maxima (rows.filterMap KeyRow.entry) column with
    | bot => exact iff_of_true (texts_of_eq_bot hm) rfl
    | coe kind =>
      rw [texts_of_eq_coe hm]
      exact iff_of_false (by simp) WithBot.coe_ne_bot
  rw [hbot, maxima_eq_bot_iff]
  simp only [mem_filterMap_entry]
  constructor
  · intro h row hrow hcolumn
    exact Option.eq_none_iff_forall_not_mem.mpr fun kind hkind => h kind ⟨row, hrow, hcolumn, hkind⟩
  · rintro h kind ⟨row, hrow, hcolumn, hkind⟩
    rw [h row hrow hcolumn] at hkind
    cases hkind

/-- The keys of the columns do not depend on the order of the rows: a column has the highest key
that a row gives to it, and none when no row gives one. -/
theorem columnKeys_spec (rows : List KeyRow) :
    (∀ rows', rows.Perm rows' → columnKeys rows = columnKeys rows') ∧
    (∀ column key, columnKeys rows column = some key ↔
      ∃ kind, IsGreatest (kindsOf rows column) kind ∧ key = kind.text) ∧
    ∀ column, columnKeys rows column = none ↔
      ∀ row ∈ rows, row.columnName = column → row.kind = none := by
  refine ⟨fun rows' h => ?_, fun column key => columnKeys_eq_some_iff,
    fun column => columnKeys_eq_none_iff⟩
  rw [columnKeys_eq_texts, columnKeys_eq_texts, maxima_perm (h.filterMap KeyRow.entry)]

/-- A column of the primary key that is also the first of a unique key of two columns. -/
theorem columnKeys_spec_id :
    columnKeys [⟨"id", false, true, 2, 1⟩, ⟨"id", true, true, 1, 1⟩] =
      columnKeys [⟨"id", true, true, 1, 1⟩, ⟨"id", false, true, 2, 1⟩] ∧
    columnKeys [⟨"id", false, true, 2, 1⟩, ⟨"id", true, true, 1, 1⟩] "id" = some "PRI" := by
  have h := columnKeys_spec [⟨"id", false, true, 2, 1⟩, ⟨"id", true, true, 1, 1⟩]
  exact ⟨h.1 _ (.swap _ _ []), by decide⟩

end TdExport.Postgres
