import Mathlib.Data.List.Sort
import Mathlib.Tactic
import TdExport.Core.Order

/-!
# Stable sorting by a key

Sorting a list by a key below `n` puts the elements of each key, in the order of the list, one key
after the other.
-/

namespace Core

variable {α : Type*}

/-- The elements of `l` by their key: key 0 first, each key in the order of the list. -/
def byKey (key : α → ℕ) (n : ℕ) (l : List α) : List α :=
  (List.range n).flatMap fun k => l.filter (key · = k)

/-- `sort_by_key`. -/
def sortByKey (key : α → ℕ) (l : List α) : List α :=
  l.insertionSort fun a b => key a ≤ key b

variable {key : α → ℕ} {n : ℕ}

lemma key_lt_of_mem_byKey {k : ℕ} {l : List α} {b : α} (h : b ∈ byKey key k l) : key b < k := by
  obtain ⟨j, hj, hb⟩ := List.mem_flatMap.mp h
  rw [of_decide_eq_true (List.mem_filter.mp hb).2]
  exact List.mem_range.mp hj

/-- An element that is inserted goes in front of those with its key. -/
lemma orderedInsert_append {a : α} {l₁ l₂ : List α} (h₁ : ∀ b ∈ l₁, key b < key a)
    (h₂ : ∀ b ∈ l₂, key a ≤ key b) :
    (l₁ ++ l₂).orderedInsert (fun a b => key a ≤ key b) a = l₁ ++ a :: l₂ := by
  induction l₁ with
  | nil =>
    cases l₂ with
    | nil => rfl
    | cons b l₂ => exact List.orderedInsert_cons_of_le _ _ (h₂ b List.mem_cons_self)
  | cons b l₁ ih =>
    have hb := h₁ b List.mem_cons_self
    rw [List.cons_append, List.orderedInsert_cons, if_neg (not_le.mpr hb),
      ih fun c hc => h₁ c (List.mem_cons_of_mem _ hc)]
    rfl

lemma byKey_cons {a : α} (l : List α) (ha : key a < n) :
    ∃ l₁ l₂, byKey key n l = l₁ ++ l₂ ∧ byKey key n (a :: l) = l₁ ++ a :: l₂ ∧
      (∀ b ∈ l₁, key b < key a) ∧ ∀ b ∈ l₂, key a ≤ key b := by
  obtain ⟨m, rfl⟩ := Nat.exists_eq_add_of_lt ha
  let rest (l : List α) : List α :=
    ((List.range m).map (key a + 1 + ·)).flatMap fun k => l.filter (key · = k)
  have hsplit : ∀ l, byKey key (key a + m + 1) l =
      byKey key (key a) l ++ (l.filter (key · = key a) ++ rest l) := by
    intro l
    rw [byKey, show key a + m + 1 = key a + 1 + m by omega, List.range_add,
      List.flatMap_append, List.range_succ, List.flatMap_append, List.append_assoc]
    simp [byKey, rest]
  have hother : ∀ j, j ≠ key a → (a :: l).filter (key · = j) = l.filter (key · = j) := by
    intro j hj
    exact List.filter_cons_of_neg (by simpa using hj.symm)
  refine ⟨byKey key (key a) l, l.filter (key · = key a) ++ rest l, hsplit l, ?_, ?_, ?_⟩
  · rw [hsplit, List.filter_cons_of_pos (by simp)]
    congr 1
    · refine List.flatMap_congr fun j hj => hother j ?_
      exact (List.mem_range.mp hj).ne
    · rw [List.cons_append]
      congr 2
      refine List.flatMap_congr fun j hj => hother j ?_
      obtain ⟨i, -, rfl⟩ := List.mem_map.mp hj
      omega
  · exact fun b hb => key_lt_of_mem_byKey hb
  · intro b hb
    rcases List.mem_append.mp hb with hb | hb
    · exact (of_decide_eq_true (List.mem_filter.mp hb).2).ge
    · obtain ⟨j, hj, hb⟩ := List.mem_flatMap.mp hb
      obtain ⟨i, -, rfl⟩ := List.mem_map.mp hj
      rw [of_decide_eq_true (List.mem_filter.mp hb).2]
      omega

/-- Sorting by a key is stable: the elements of each key keep their order. -/
theorem sortByKey_eq_byKey {l : List α} (h : ∀ a ∈ l, key a < n) :
    sortByKey key l = byKey key n l := by
  induction l with
  | nil => simp [sortByKey, byKey]
  | cons a l ih =>
    obtain ⟨l₁, l₂, hl, hal, h₁, h₂⟩ := byKey_cons l (h a List.mem_cons_self)
    have ih := ih fun b hb => h b (List.mem_cons_of_mem _ hb)
    rw [sortByKey] at ih ⊢
    rw [List.insertionSort_cons, ih, hl, hal, orderedInsert_append h₁ h₂]

/-! ### Keys of any order -/

section CachedKey

variable {κ : Type*} [LinearOrder κ]

/-- `sort_by_cached_key`. -/
def sortByCachedKey (key : α → κ) (l : List α) : List α :=
  l.insertionSort fun a b => key a ≤ key b

lemma sortByCachedKey_perm (key : α → κ) (l : List α) : (sortByCachedKey key l).Perm l :=
  List.perm_insertionSort _ l

variable {key : α → κ} {l l₁ l₂ l₃ : List α} {a b c : α}

lemma sortByCachedKey_sorted (key : α → κ) (l : List α) :
    (sortByCachedKey key l).Pairwise fun a b => key a ≤ key b := by
  have htotal : Std.Total fun a b : α => key a ≤ key b := ⟨fun a b => le_total (key a) (key b)⟩
  have htrans : IsTrans α fun a b => key a ≤ key b := ⟨fun _ _ _ => le_trans⟩
  exact List.pairwise_insertionSort _ l

/-- In a sorted list an element comes before those with a greater key. -/
lemma before_of_key_lt (hl : l.Pairwise fun a b => key a ≤ key b) (ha : a ∈ l)
    (hab : key a < key b) : Before l a b := by
  rintro l₁ l₂ rfl
  obtain ⟨-, h₂, -⟩ := List.pairwise_append.mp hl
  rcases List.mem_append.mp ha with ha | ha
  · exact ha
  · rcases List.mem_cons.mp ha with rfl | ha
    · exact absurd hab (lt_irrefl _)
    · exact absurd (List.rel_of_pairwise_cons h₂ ha) (not_le.mpr hab)

/-- What stands between two elements has a key between theirs. -/
lemma key_between (hl : (l₁ ++ a :: l₂ ++ b :: l₃).Pairwise fun a b => key a ≤ key b)
    (hc : c ∈ l₂) : key a ≤ key c ∧ key c ≤ key b := by
  obtain ⟨hleft, -, hright⟩ := List.pairwise_append.mp hl
  obtain ⟨-, hac, -⟩ := List.pairwise_append.mp hleft
  constructor
  · exact List.rel_of_pairwise_cons hac hc
  · exact hright c (by simp [hc]) b List.mem_cons_self

end CachedKey

end Core
