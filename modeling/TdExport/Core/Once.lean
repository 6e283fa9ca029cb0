import Mathlib.Data.Finset.Card
import Mathlib.Tactic

/-!
# Reporting once per key

A log that reports a value only when no value with the same key was seen before.
-/

namespace Core

/-- The keys seen so far, and the reported values in order. -/
structure OnceLog (κ α : Type*) where
  seen : Finset κ := ∅
  events : List α := []

namespace OnceLog

variable {α κ : Type*} [DecidableEq κ] (key : α → κ)

/-- Report `x`, unless its key was seen. -/
def report (log : OnceLog κ α) (x : α) : OnceLog κ α :=
  if key x ∈ log.seen then log else ⟨insert (key x) log.seen, log.events ++ [x]⟩

def reportAll (log : OnceLog κ α) (xs : List α) : OnceLog κ α := xs.foldl (report key) log

variable {key} {log : OnceLog κ α} {x : α} {xs : List α}

@[simp] lemma reportAll_nil : log.reportAll key [] = log := rfl

@[simp] lemma reportAll_cons :
    log.reportAll key (x :: xs) = (log.report key x).reportAll key xs := rfl

/-- No key is reported twice, and the keys seen are those of the reported values. -/
structure Sound (key : α → κ) (log : OnceLog κ α) : Prop where
  nodup : (log.events.map key).Nodup
  seen_eq : log.seen = (log.events.map key).toFinset

lemma Sound.empty : Sound key {} := ⟨List.nodup_nil, rfl⟩

lemma Sound.report (h : Sound key log) (x : α) : Sound key (log.report key x) := by
  by_cases hx : key x ∈ log.seen
  · rwa [OnceLog.report, if_pos hx]
  · rw [OnceLog.report, if_neg hx]
    have hnot : key x ∉ log.events.map key := by
      rwa [h.seen_eq, List.mem_toFinset] at hx
    constructor
    · rw [List.map_append]
      apply List.Nodup.append h.nodup (List.nodup_singleton _)
      simpa using hnot
    · rw [List.map_append, List.toFinset_append, ← h.seen_eq]
      ext k
      simp

lemma Sound.reportAll (h : Sound key log) (xs : List α) : Sound key (log.reportAll key xs) := by
  induction xs generalizing log with
  | nil => exact h
  | cons x xs ih => exact ih (h.report x)

lemma seen_report : (log.report key x).seen = insert (key x) log.seen := by
  by_cases hx : key x ∈ log.seen
  · rw [report, if_pos hx, Finset.insert_eq_self.mpr hx]
  · rw [report, if_neg hx]

lemma seen_reportAll : (log.reportAll key xs).seen = log.seen ∪ (xs.map key).toFinset := by
  induction xs generalizing log with
  | nil => simp
  | cons x xs ih =>
    rw [reportAll_cons, ih, seen_report]
    ext k
    simp only [Finset.mem_union, Finset.mem_insert, List.map_cons, List.toFinset_cons]
    tauto

/-- From an empty log there is one report for each key. -/
theorem length_events_reportAll (xs : List α) :
    ((({} : OnceLog κ α).reportAll key xs).events).length = (xs.map key).toFinset.card := by
  have h := (@Sound.empty _ _ _ key).reportAll xs
  have hseen := h.seen_eq
  rw [seen_reportAll, Finset.empty_union] at hseen
  rw [hseen, List.toFinset_card_of_nodup h.nodup, List.length_map]

end OnceLog

/-- There are as many keys as values exactly when the key tells the values apart. -/
lemma card_map_toFinset_eq_iff {β κ : Type*} [DecidableEq β] [DecidableEq κ] (key : β → κ)
    (l : List β) :
    (l.map key).toFinset.card = l.toFinset.card ↔ ∀ a ∈ l, ∀ b ∈ l, key a = key b → a = b := by
  have himage : (l.map key).toFinset = l.toFinset.image key := by
    ext k
    simp
  rw [himage, Finset.card_image_iff]
  constructor
  · intro h a ha b hb
    exact h (by simpa using ha) (by simpa using hb)
  · intro h a ha b hb
    exact h a (by simpa using ha) b (by simpa using hb)

end Core
