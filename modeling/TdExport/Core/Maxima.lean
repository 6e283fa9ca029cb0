import Mathlib.Data.List.MinMax
import Mathlib.Data.List.Perm.Basic
import Mathlib.Tactic

/-!
# Maps of maxima

A map that keeps, for every key, the greatest of the values that were put in. The order in which
they were put in does not matter.
-/

namespace Core

variable {κ β : Type*} [DecidableEq κ] {entries entries' : List (κ × β)} {k : κ} {v : β}

/-- The values that were put in under a key. -/
def valuesAt (entries : List (κ × β)) (k : κ) : List β :=
  (entries.filter fun entry => entry.1 = k).map Prod.snd

lemma mem_valuesAt : v ∈ valuesAt entries k ↔ (k, v) ∈ entries := by
  simp [valuesAt]

variable [LinearOrder β]

/-- Put in a value, unless there is a greater one. -/
def raise (m : κ → WithBot β) (entry : κ × β) : κ → WithBot β :=
  Function.update m entry.1 (max (m entry.1) entry.2)

/-- The map of the entries. -/
def maxima (entries : List (κ × β)) : κ → WithBot β := entries.foldl raise fun _ => ⊥

lemma raise_apply (m : κ → WithBot β) (entry : κ × β) (k : κ) :
    raise m entry k = if entry.1 = k then max (m k) entry.2 else m k := by
  by_cases h : entry.1 = k
  · rw [if_pos h, raise, ← h, Function.update_self]
  · rw [if_neg h, raise, Function.update_of_ne (Ne.symm h)]

lemma maxima_concat (entries : List (κ × β)) (entry : κ × β) :
    maxima (entries ++ [entry]) = raise (maxima entries) entry := by
  rw [maxima, List.foldl_append]
  rfl

lemma maxima_apply (entries : List (κ × β)) (k : κ) :
    maxima entries k = (valuesAt entries k).maximum := by
  induction entries using List.reverseRecOn with
  | nil => rfl
  | append_singleton entries entry ih =>
    rw [maxima_concat, raise_apply, ih, valuesAt, valuesAt, List.filter_append, List.map_append]
    by_cases h : entry.1 = k
    · rw [if_pos h, List.filter_cons_of_pos (by simpa using h), List.filter_nil, List.map_singleton,
        List.maximum_concat]
    · rw [if_neg h, List.filter_cons_of_neg (by simpa using h), List.filter_nil, List.map_nil,
        List.append_nil]

/-- The map has the greatest value of each key. -/
theorem maxima_eq_coe_iff : maxima entries k = v ↔ IsGreatest {w | (k, w) ∈ entries} v := by
  rw [maxima_apply, List.maximum_eq_coe_iff, mem_valuesAt]
  simp only [mem_valuesAt]
  rfl

theorem maxima_eq_bot_iff : maxima entries k = ⊥ ↔ ∀ w, (k, w) ∉ entries := by
  rw [maxima_apply, List.maximum_eq_bot, List.eq_nil_iff_forall_not_mem]
  simp only [mem_valuesAt]

lemma raise_right_comm (m : κ → WithBot β) (p q : κ × β) :
    raise (raise m p) q = raise (raise m q) p := by
  funext k
  simp only [raise_apply]
  split_ifs
  · exact max_right_comm _ _ _
  all_goals rfl

theorem maxima_perm (h : entries.Perm entries') : maxima entries = maxima entries' :=
  h.foldl_eq' (fun p _ q _ m => raise_right_comm m p q) _

end Core
