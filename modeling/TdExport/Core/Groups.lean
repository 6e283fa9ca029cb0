import Mathlib.Data.List.Dedup
import Mathlib.Tactic

/-!
# Groups of rows

A loop that puts a row into the last group when their keys are equal, and starts a group otherwise.
When equal keys stand side by side it makes one group for each key, of all rows with this key.
-/

namespace Core

variable {ρ κ γ : Type*} {ks : List κ} {k : κ}

/-! ### Side by side -/

/-- Between two equal entries there is no other. -/
def Contiguous (ks : List κ) : Prop :=
  ∀ before k between after, ks = before ++ k :: (between ++ k :: after) → ∀ k' ∈ between, k' = k

/-- Sorted entries are contiguous. -/
lemma contiguous_of_pairwise {r : κ → κ → Prop} [Std.Antisymm r] (h : ks.Pairwise r) :
    Contiguous ks := by
  rintro before k between after rfl k' hk'
  have htail := List.pairwise_cons.mp (List.pairwise_append.mp h).2.1
  have hle : r k k' := htail.1 k' (by simp [hk'])
  have hge : r k' k := (List.pairwise_append.mp htail.2).2.2 k' hk' k List.mem_cons_self
  exact Std.Antisymm.antisymm k' k hge hle

lemma Contiguous.of_concat (h : Contiguous (ks ++ [k])) : Contiguous ks := by
  rintro before k' between after rfl
  exact h before k' between (after ++ [k]) (by simp)

/-- An entry that comes again was the last one. -/
lemma Contiguous.getLast?_of_mem (h : Contiguous (ks ++ [k])) (hk : k ∈ ks) :
    ks.getLast? = some k := by
  obtain ⟨before, between, rfl⟩ := List.append_of_mem hk
  have hbetween := h before k between [] (by simp)
  rcases List.eq_nil_or_concat' between with rfl | ⟨between, k', rfl⟩
  · exact List.getLast?_concat
  · obtain rfl : k' = k := hbetween k' (by simp)
    rw [← List.cons_append, ← List.append_assoc, List.getLast?_concat]

/-! ### First appearances -/

variable [DecidableEq κ]

/-- The entries of a list without repetitions, in the order in which they first appear. -/
def firstAppearances (ks : List κ) : List κ := ks.reverse.dedup.reverse

lemma nodup_firstAppearances (ks : List κ) : (firstAppearances ks).Nodup :=
  List.nodup_reverse.mpr (List.nodup_dedup _)

@[simp] lemma mem_firstAppearances : k ∈ firstAppearances ks ↔ k ∈ ks := by
  simp [firstAppearances]

lemma firstAppearances_concat_of_mem (h : k ∈ ks) :
    firstAppearances (ks ++ [k]) = firstAppearances ks := by
  rw [firstAppearances, List.reverse_append, List.reverse_singleton, List.singleton_append,
    List.dedup_cons_of_mem (List.mem_reverse.mpr h), firstAppearances]

lemma firstAppearances_concat_of_notMem (h : k ∉ ks) :
    firstAppearances (ks ++ [k]) = firstAppearances ks ++ [k] := by
  rw [firstAppearances, List.reverse_append, List.reverse_singleton, List.singleton_append,
    List.dedup_cons_of_notMem (mt List.mem_reverse.mp h), List.reverse_cons, firstAppearances]

lemma Contiguous.getLast?_firstAppearances (h : Contiguous ks) :
    (firstAppearances ks).getLast? = ks.getLast? := by
  induction ks using List.reverseRecOn with
  | nil => rfl
  | append_singleton ks k ih =>
    by_cases hk : k ∈ ks
    · rw [firstAppearances_concat_of_mem hk, ih h.of_concat, h.getLast?_of_mem hk,
        List.getLast?_concat]
    · rw [firstAppearances_concat_of_notMem hk, List.getLast?_concat, List.getLast?_concat]

/-! ### The groups -/

section Grouping

variable (key : ρ → κ) (keyOf : γ → κ) (start : ρ → γ) (extend : γ → ρ → γ)

/-- One turn of the loop. -/
def groupStep (groups : List γ) (row : ρ) : List γ :=
  match groups.getLast? with
  | some last =>
    if keyOf last = key row then groups.dropLast ++ [extend last row] else groups ++ [start row]
  | none => groups ++ [start row]

/-- The group of a block of rows. -/
def groupOf : List ρ → Option γ
  | [] => none
  | row :: rows => some (rows.foldl extend (start row))

/-- The rows with the key `k`. -/
def rowsAt (rows : List ρ) (k : κ) : List ρ := rows.filter fun row => key row = k

/-- The group of the rows with the key `k`. -/
def groupAt (rows : List ρ) (k : κ) : Option γ := groupOf start extend (rowsAt key rows k)

/-- The groups of the keys, in the order in which they first appear. -/
def groupsOf (rows : List ρ) : List γ :=
  (firstAppearances (rows.map key)).filterMap (groupAt key start extend rows)

/-- A group has the key of its first row. -/
structure IsGrouping : Prop where
  keyOf_start : ∀ row, keyOf (start row) = key row
  keyOf_extend : ∀ group row, keyOf (extend group row) = keyOf group

variable {rows : List ρ} {row : ρ} {group : γ} {groups : List γ}

variable {key keyOf start extend}

lemma groupStep_of_eq (h : keyOf group = key row) :
    groupStep key keyOf start extend (groups ++ [group]) row = groups ++ [extend group row] := by
  simp only [groupStep, List.getLast?_concat, List.dropLast_concat, if_pos h]

lemma groupStep_of_ne (h : ∀ last, groups.getLast? = some last → keyOf last ≠ key row) :
    groupStep key keyOf start extend groups row = groups ++ [start row] := by
  rw [groupStep]
  cases hlast : groups.getLast? with
  | none => rfl
  | some last => exact if_neg (h last hlast)

omit [DecidableEq κ] in
lemma groupOf_eq_some_iff : groupOf start extend rows = some group ↔
    ∃ first rest, rows = first :: rest ∧ rest.foldl extend (start first) = group := by
  cases rows with
  | nil => simp [groupOf]
  | cons first rest => simp [groupOf, eq_comm]

lemma exists_groupAt (h : k ∈ rows.map key) :
    ∃ group, groupAt key start extend rows k = some group := by
  obtain ⟨row, hrow, rfl⟩ := List.mem_map.mp h
  have hmem : row ∈ rowsAt key rows (key row) := by simp [rowsAt, hrow]
  obtain ⟨first, rest, hrows⟩ := List.exists_cons_of_ne_nil (List.ne_nil_of_mem hmem)
  exact ⟨_, groupOf_eq_some_iff.mpr ⟨first, rest, hrows, rfl⟩⟩

lemma rowsAt_concat_self :
    rowsAt key (rows ++ [row]) (key row) = rowsAt key rows (key row) ++ [row] := by
  simp [rowsAt]

lemma groupAt_concat_of_ne (h : key row ≠ k) :
    groupAt key start extend (rows ++ [row]) k = groupAt key start extend rows k := by
  simp [groupAt, rowsAt, h]

lemma groupAt_concat_of_notMem (h : key row ∉ rows.map key) :
    groupAt key start extend (rows ++ [row]) (key row) = some (start row) := by
  have hnil : rowsAt key rows (key row) = [] := by
    rw [rowsAt, List.filter_eq_nil_iff]
    intro other hother hkey
    rw [decide_eq_true_eq] at hkey
    exact h (hkey ▸ List.mem_map_of_mem hother)
  rw [groupAt, rowsAt_concat_self, hnil]
  rfl

lemma groupAt_concat_of_eq_some (h : groupAt key start extend rows (key row) = some group) :
    groupAt key start extend (rows ++ [row]) (key row) = some (extend group row) := by
  obtain ⟨first, rest, hrows, rfl⟩ := groupOf_eq_some_iff.mp h
  refine groupOf_eq_some_iff.mpr ⟨first, rest ++ [row], ?_, List.foldl_append⟩
  rw [rowsAt_concat_self, hrows, List.cons_append]

/-- The groups of the other keys stay the same. -/
lemma filterMap_groupAt_concat {ks : List κ} (h : key row ∉ ks) :
    ks.filterMap (groupAt key start extend (rows ++ [row])) =
      ks.filterMap (groupAt key start extend rows) := by
  refine List.filterMap_congr fun k hk => groupAt_concat_of_ne ?_
  rintro rfl
  exact h hk

/-- The row of a new key makes a group of its own. -/
lemma groupsOf_concat_of_notMem (h : key row ∉ rows.map key) :
    groupsOf key start extend (rows ++ [row]) = groupsOf key start extend rows ++ [start row] := by
  rw [groupsOf, List.map_append, List.map_singleton, firstAppearances_concat_of_notMem h,
    List.filterMap_append, filterMap_groupAt_concat (mt mem_firstAppearances.mp h),
    List.filterMap_cons_some (groupAt_concat_of_notMem h), List.filterMap_nil, ← groupsOf]

/-- The row of the last key goes to the last group. -/
lemma groupsOf_concat_of_getLast?
    (h : (firstAppearances (rows.map key)).getLast? = some (key row)) :
    ∃ groups group, groupsOf key start extend rows = groups ++ [group] ∧
      groupAt key start extend rows (key row) = some group ∧
      groupsOf key start extend (rows ++ [row]) = groups ++ [extend group row] := by
  obtain ⟨others, hothers⟩ := List.getLast?_eq_some_iff.mp h
  have hmem : key row ∈ rows.map key := by
    rw [← mem_firstAppearances, hothers]
    exact List.mem_append_right others (List.mem_singleton_self _)
  have hnotMem : key row ∉ others := by
    have hnodup := nodup_firstAppearances (rows.map key)
    rw [hothers] at hnodup
    exact fun hin => (List.nodup_append.mp hnodup).2.2 _ hin _ (List.mem_singleton_self _) rfl
  obtain ⟨group, hgroup⟩ := exists_groupAt hmem
  refine ⟨others.filterMap (groupAt key start extend rows), group, ?_, hgroup, ?_⟩
  · rw [groupsOf, hothers, List.filterMap_append, List.filterMap_cons_some hgroup,
      List.filterMap_nil]
  · rw [groupsOf, List.map_append, List.map_singleton, firstAppearances_concat_of_mem hmem, hothers,
      List.filterMap_append, filterMap_groupAt_concat hnotMem,
      List.filterMap_cons_some (groupAt_concat_of_eq_some hgroup), List.filterMap_nil]

namespace IsGrouping

omit [DecidableEq κ] in
lemma keyOf_foldl (h : IsGrouping key keyOf start extend) (rows : List ρ) (group : γ) :
    keyOf (rows.foldl extend group) = keyOf group := by
  induction rows generalizing group with
  | nil => rfl
  | cons row rows ih => rw [List.foldl_cons, ih, h.keyOf_extend]

/-- The group of a key has this key. -/
lemma keyOf_groupAt (h : IsGrouping key keyOf start extend)
    (hgroup : groupAt key start extend rows k = some group) : keyOf group = k := by
  obtain ⟨first, rest, hrows, rfl⟩ := groupOf_eq_some_iff.mp hgroup
  have hfirst : first ∈ rowsAt key rows k := hrows ▸ List.mem_cons_self
  rw [h.keyOf_foldl, h.keyOf_start]
  simpa using (List.mem_filter.mp hfirst).2

/-- The loop makes the groups of the keys. -/
theorem foldl_groupStep (h : IsGrouping key keyOf start extend)
    (hrows : Contiguous (rows.map key)) :
    rows.foldl (groupStep key keyOf start extend) [] = groupsOf key start extend rows := by
  induction rows using List.reverseRecOn with
  | nil => rfl
  | append_singleton rows row ih =>
    rw [List.map_append, List.map_singleton] at hrows
    rw [List.foldl_append, List.foldl_cons, List.foldl_nil, ih hrows.of_concat]
    by_cases hrow : key row ∈ rows.map key
    · have hlast := hrows.of_concat.getLast?_firstAppearances.trans (hrows.getLast?_of_mem hrow)
      obtain ⟨groups, group, hgroups, hgroup, hnext⟩ := groupsOf_concat_of_getLast? hlast
      rw [hnext, hgroups, groupStep_of_eq (h.keyOf_groupAt hgroup)]
    · rw [groupsOf_concat_of_notMem hrow]
      refine groupStep_of_ne fun last hlast => ?_
      obtain ⟨k, hk, hgroup⟩ := List.mem_filterMap.mp (List.mem_of_getLast? hlast)
      rw [h.keyOf_groupAt hgroup]
      rintro rfl
      exact hrow (mem_firstAppearances.mp hk)

/-- There is one group for each key. -/
theorem map_keyOf_groupsOf (h : IsGrouping key keyOf start extend) (rows : List ρ) :
    (groupsOf key start extend rows).map keyOf = firstAppearances (rows.map key) := by
  have hsome : ∀ k ∈ firstAppearances (rows.map key),
      (groupAt key start extend rows k).map keyOf = some k := by
    intro k hk
    obtain ⟨group, hgroup⟩ := exists_groupAt (mem_firstAppearances.mp hk)
    rw [hgroup, Option.map_some, h.keyOf_groupAt hgroup]
  rw [groupsOf, List.map_filterMap, List.filterMap_congr hsome, List.filterMap_some]

/-- A group is that of the rows with its key. -/
lemma groupAt_of_mem (h : IsGrouping key keyOf start extend)
    (hgroup : group ∈ groupsOf key start extend rows) :
    groupAt key start extend rows (keyOf group) = some group := by
  obtain ⟨k, -, hk⟩ := List.mem_filterMap.mp hgroup
  rwa [h.keyOf_groupAt hk]

end IsGrouping

end Grouping

end Core
