import Mathlib.Data.List.Sort
import Mathlib.Tactic

/-!
# Maps sorted by key

A map as the list of its entries in the order of their keys, which carries its order.
-/

namespace Core

/-- A map from `K` to `V`, with its entries in the order of the keys. -/
structure SortedMap (K V : Type*) [LinearOrder K] where
  entries : List (K × V)
  sorted : entries.Pairwise fun a b => a.1 < b.1

namespace SortedMap

variable {K V : Type*} [LinearOrder K]

/-- Put `v` under `k`, in place of a value that is there. -/
def insertEntry (k : K) (v : V) : List (K × V) → List (K × V)
  | [] => [(k, v)]
  | e :: l =>
    if k < e.1 then (k, v) :: e :: l
    else if k = e.1 then (k, v) :: l
    else e :: insertEntry k v l

lemma mem_of_mem_insertEntry {k : K} {v : V} {e : K × V} {l : List (K × V)}
    (h : e ∈ insertEntry k v l) : e = (k, v) ∨ e ∈ l := by
  induction l with
  | nil => simpa [insertEntry] using h
  | cons f l ih =>
    rw [insertEntry] at h
    split_ifs at h
    · simpa using h
    · rcases List.mem_cons.mp h with h | h
      · exact .inl h
      · exact .inr (List.mem_cons_of_mem _ h)
    · rcases List.mem_cons.mp h with h | h
      · exact .inr (h ▸ List.mem_cons_self)
      · exact (ih h).imp id (List.mem_cons_of_mem _)

lemma sorted_insertEntry (k : K) (v : V) {l : List (K × V)}
    (h : l.Pairwise fun a b => a.1 < b.1) :
    (insertEntry k v l).Pairwise fun a b => a.1 < b.1 := by
  induction l with
  | nil => exact List.pairwise_singleton _ _
  | cons e l ih =>
    obtain ⟨he, hl⟩ := List.pairwise_cons.mp h
    rw [insertEntry]
    split_ifs with hlt heq
    · refine List.pairwise_cons.mpr ⟨?_, h⟩
      intro f hf
      rcases List.mem_cons.mp hf with rfl | hf
      · exact hlt
      · exact hlt.trans (he f hf)
    · refine List.pairwise_cons.mpr ⟨?_, hl⟩
      intro f hf
      rw [heq]
      exact he f hf
    · refine List.pairwise_cons.mpr ⟨?_, ih hl⟩
      intro f hf
      rcases mem_of_mem_insertEntry hf with rfl | hf
      · exact lt_of_le_of_ne (not_lt.mp hlt) (Ne.symm heq)
      · exact he f hf

lemma insertEntry_perm {k : K} (v : V) {l : List (K × V)} (h : k ∉ l.map Prod.fst) :
    (insertEntry k v l).Perm ((k, v) :: l) := by
  induction l with
  | nil => exact .refl _
  | cons e l ih =>
    rw [List.map_cons, List.mem_cons, not_or] at h
    rw [insertEntry, if_neg h.1]
    split_ifs
    · exact .refl _
    · exact ((ih h.2).cons e).trans (.swap _ _ _)

def insert (m : SortedMap K V) (k : K) (v : V) : SortedMap K V :=
  ⟨insertEntry k v m.entries, sorted_insertEntry k v m.sorted⟩

/-- The map of a list of entries; of two with one key the later counts. -/
def ofList (l : List (K × V)) : SortedMap K V :=
  l.foldl (fun m e => m.insert e.1 e.2) ⟨[], .nil⟩

instance : EmptyCollection (SortedMap K V) := ⟨[], .nil⟩

def erase (m : SortedMap K V) (k : K) : SortedMap K V :=
  ⟨m.entries.filter (·.1 ≠ k), m.sorted.filter _⟩

def lookup (m : SortedMap K V) (k : K) : Option V :=
  (m.entries.find? (·.1 = k)).map Prod.snd

def keys (m : SortedMap K V) : List K := m.entries.map Prod.fst

def values (m : SortedMap K V) : List V := m.entries.map Prod.snd

def contains (m : SortedMap K V) (k : K) : Bool := m.keys.contains k

section Map

variable {W : Type*} (f : V → W)

/-- The map with the values changed. -/
def map (m : SortedMap K V) : SortedMap K W :=
  ⟨m.entries.map fun e => (e.1, f e.2), List.pairwise_map.mpr m.sorted⟩

lemma insertEntry_map (k : K) (v : V) (l : List (K × V)) :
    insertEntry k (f v) (l.map fun e => (e.1, f e.2)) =
      (insertEntry k v l).map fun e => (e.1, f e.2) := by
  induction l with
  | nil => rfl
  | cons e l ih =>
    simp only [List.map_cons, insertEntry, ih]
    split_ifs <;> rfl

lemma map_insert (m : SortedMap K V) (k : K) (v : V) :
    (m.insert k v).map f = (m.map f).insert k (f v) := by
  simp only [map, insert, insertEntry_map]

end Map

variable {m : SortedMap K V} {k : K} {v : V}

lemma keys_sorted (m : SortedMap K V) : m.keys.Pairwise (· < ·) := List.pairwise_map.mpr m.sorted

lemma keys_nodup (m : SortedMap K V) : m.keys.Nodup := m.keys_sorted.imp ne_of_lt

@[simp] lemma contains_iff : m.contains k = true ↔ k ∈ m.keys := by simp [contains]

/-- An entry with a new key goes to those that are there. -/
lemma entries_insert_perm (v : V) (h : k ∉ m.keys) :
    (m.insert k v).entries.Perm ((k, v) :: m.entries) :=
  insertEntry_perm v h

/-- Entries with different keys all go into the map. -/
lemma entries_ofList_perm {l : List (K × V)} (h : (l.map Prod.fst).Nodup) :
    (ofList l).entries.Perm l := by
  suffices hfold : ∀ m : SortedMap K V, (m.keys ++ l.map Prod.fst).Nodup →
      (l.foldl (fun m e => m.insert e.1 e.2) m).entries.Perm (m.entries ++ l) by
    exact hfold ⟨[], .nil⟩ (by simpa [keys] using h)
  clear h
  induction l with
  | nil => intro m _; simp
  | cons e l ih =>
    intro m hm
    have hnot : e.1 ∉ m.entries.map Prod.fst := by
      intro hmem
      exact (List.nodup_append.mp hm).2.2 _ hmem _ (by simp) rfl
    have hperm := insertEntry_perm e.2 hnot
    have hkeys : ((m.insert e.1 e.2).keys ++ l.map Prod.fst).Perm
        (m.keys ++ (e :: l).map Prod.fst) := by
      refine ((hperm.map Prod.fst).append_right _).trans ?_
      simpa [keys] using List.perm_middle.symm
    refine (ih _ (hkeys.nodup_iff.mpr hm)).trans ?_
    refine (hperm.append_right l).trans ?_
    simpa using List.perm_middle.symm

lemma lookup_eq_some_of_mem (h : (k, v) ∈ m.entries) : m.lookup k = some v := by
  have hfind : m.entries.find? (·.1 = k) = some (k, v) := by
    have hpair := m.sorted
    generalize m.entries = l at h hpair
    induction l with
    | nil => cases h
    | cons e l ih =>
      obtain ⟨he, hl⟩ := List.pairwise_cons.mp hpair
      rcases List.mem_cons.mp h with rfl | h
      · simp
      · rw [List.find?_cons_of_neg (by simpa using (he _ h).ne)]
        exact ih h hl
  rw [lookup, hfind, Option.map_some]

lemma lookup_eq_none_of_not_mem (h : k ∉ m.keys) : m.lookup k = none := by
  rw [lookup, List.find?_eq_none.mpr, Option.map_none]
  intro e he hk
  exact h (List.mem_map.mpr ⟨e, he, of_decide_eq_true hk⟩)

lemma mem_entries_of_lookup (h : m.lookup k = some v) : (k, v) ∈ m.entries := by
  obtain ⟨⟨k', v'⟩, hfind, rfl⟩ := Option.map_eq_some_iff.mp h
  have hk : k' = k := of_decide_eq_true (List.find?_some (p := fun e : K × V => e.1 = k) hfind)
  rw [← hk]
  exact List.mem_of_find?_eq_some hfind

lemma mem_insertEntry (k : K) (v : V) (l : List (K × V)) : (k, v) ∈ insertEntry k v l := by
  induction l with
  | nil => exact List.mem_singleton_self _
  | cons e l ih =>
    rw [insertEntry]
    split_ifs
    · exact List.mem_cons_self
    · exact List.mem_cons_self
    · exact List.mem_cons_of_mem _ ih

lemma mem_insertEntry_of_ne {e : K × V} (h : e.1 ≠ k) {l : List (K × V)} :
    e ∈ insertEntry k v l ↔ e ∈ l := by
  induction l with
  | nil =>
    rw [insertEntry, List.mem_singleton]
    exact iff_of_false (fun he => h (congrArg Prod.fst he)) List.not_mem_nil
  | cons f l ih =>
    have hne : e ≠ (k, v) := fun he => h (congrArg Prod.fst he)
    rw [insertEntry]
    split_ifs with hlt heq
    · rw [List.mem_cons, or_iff_right hne]
    · have hf : e ≠ f := fun he => h (by rw [he, heq])
      rw [List.mem_cons, or_iff_right hne, List.mem_cons, or_iff_right hf]
    · rw [List.mem_cons, List.mem_cons, ih]

@[simp] lemma lookup_insert_self (m : SortedMap K V) (k : K) (v : V) :
    (m.insert k v).lookup k = some v :=
  lookup_eq_some_of_mem (mem_insertEntry k v m.entries)

lemma lookup_insert_of_ne {k' : K} (h : k' ≠ k) : (m.insert k v).lookup k' = m.lookup k' := by
  ext v'
  constructor
  · intro hv
    exact lookup_eq_some_of_mem
      ((mem_insertEntry_of_ne (e := (k', v')) h).mp (mem_entries_of_lookup hv))
  · intro hv
    exact lookup_eq_some_of_mem
      ((mem_insertEntry_of_ne (e := (k', v')) h).mpr (mem_entries_of_lookup hv))

@[simp] lemma lookup_erase_self (m : SortedMap K V) (k : K) : (m.erase k).lookup k = none := by
  apply lookup_eq_none_of_not_mem
  rw [keys, List.mem_map]
  rintro ⟨e, he, rfl⟩
  exact of_decide_eq_true (List.mem_filter.mp he).2 rfl

lemma lookup_erase_of_ne {k' : K} (h : k' ≠ k) : (m.erase k).lookup k' = m.lookup k' := by
  ext v'
  constructor
  · intro hv
    exact lookup_eq_some_of_mem (List.mem_filter.mp (mem_entries_of_lookup hv)).1
  · intro hv
    exact lookup_eq_some_of_mem
      (List.mem_filter.mpr ⟨mem_entries_of_lookup hv, decide_eq_true h⟩)

/-- The values of a sorted list of keys of the map. -/
lemma filterMap_lookup (p : K → Bool) :
    (m.keys.filter p).filterMap m.lookup = (m.entries.filter fun e => p e.1).map Prod.snd := by
  suffices h : ∀ l : List (K × V), (∀ e ∈ l, m.lookup e.1 = some e.2) →
      ((l.map Prod.fst).filter p).filterMap m.lookup = (l.filter fun e => p e.1).map Prod.snd from
    h m.entries fun e he => lookup_eq_some_of_mem he
  intro l hl
  induction l with
  | nil => rfl
  | cons e l ih =>
    have ih := ih fun f hf => hl f (List.mem_cons_of_mem _ hf)
    by_cases hp : p e.1 = true
    · simp [hp, hl e List.mem_cons_self, ih]
    · simp [hp, ih]

lemma filterMap_lookup_keys (m : SortedMap K V) : m.keys.filterMap m.lookup = m.values := by
  simpa [values] using m.filterMap_lookup fun _ => true

lemma exists_lookup_of_mem_keys (h : k ∈ m.keys) :
    ∃ v, (k, v) ∈ m.entries ∧ m.lookup k = some v := by
  obtain ⟨⟨k, v⟩, he, rfl⟩ := List.mem_map.mp h
  exact ⟨v, he, lookup_eq_some_of_mem he⟩

/-- Mapping the values leaves the order of the entries alone. -/
lemma entries_ofList_map {W : Type*} (f : K × V → W) {l : List (K × V)}
    (h : (l.map Prod.fst).Nodup) :
    (ofList (l.map fun e => (e.1, f e))).entries =
      (ofList l).entries.map fun e => (e.1, f e) := by
  have hkeys : ((l.map fun e => (e.1, f e)).map Prod.fst).Nodup := by
    simpa [Function.comp_def] using h
  have hperm := (entries_ofList_perm hkeys).trans
    ((entries_ofList_perm h).map fun e => (e.1, f e)).symm
  refine hperm.eq_of_pairwise (fun a b _ _ hab hba => ?_) (ofList _).sorted
    (List.pairwise_map.mpr (ofList l).sorted)
  exact absurd (hab.trans hba) (lt_irrefl _)

end SortedMap

end Core
