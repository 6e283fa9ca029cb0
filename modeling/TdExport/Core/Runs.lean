import TdExport.Core.Order

/-!
# Runs

A run is one element several times in a row. A text that is closed by a longer run than any it has
has such a run in its last line only.
-/

namespace Core

variable {α : Type*} {a b : α} {s : List α} {k n : ℕ}

/-- Another element ends a run. -/
lemma replicate_infix_append_cons (hb : b ≠ a) :
    List.replicate k a <:+: List.replicate n a ++ b :: s ↔ k ≤ n ∨ List.replicate k a <:+: s := by
  have hmem : b ∉ List.replicate k a := fun h => hb (List.eq_of_mem_replicate h)
  rw [infix_append_cons_iff hmem, List.infix_replicate_iff, List.length_replicate]
  simp

/-- What ends in `b` and has no `b` in `line` ends before `line` or has it inside. -/
lemma append_append_eq_concat {before line after : List α} (hline : b ∉ line) (hne : line ≠ [])
    (h : before ++ line ++ after = s ++ [b]) : ∃ t, s = before ++ line ++ t ∧ after = t ++ [b] := by
  rcases append_eq_append_cons h with ⟨t, ht⟩ | ⟨t, hs, hafter⟩
  · have hnil : t = [] := by
      rw [ht, List.append_assoc, List.append_cancel_left_eq, List.cons_append] at h
      exact (List.append_eq_nil_iff.mp (List.cons.inj h).2).1
    rw [hnil] at ht
    have hlast := congrArg List.getLast? ht
    rw [List.getLast?_append_of_ne_nil _ hne, List.getLast?_concat] at hlast
    exact absurd (List.mem_of_getLast? hlast) hline
  · exact ⟨t, hs, hafter⟩

/-- A run that closes a text without such a run is found only at its end. -/
theorem closing_run {before line after : List α} (hn : 0 < n)
    (hs : ¬List.replicate n a <:+: s) (hline : b ∉ line) (hrun : List.replicate n a <:+: line)
    (h : before ++ line ++ after = s ++ b :: (List.replicate n a ++ [b])) :
    before = s ++ [b] ∧ line = List.replicate n a ∧ after = [b] := by
  have hlength : n ≤ line.length := by simpa using hrun.length_le
  have hne : line ≠ [] := List.ne_nil_of_length_pos (hn.trans_le hlength)
  rw [List.append_assoc] at h
  rcases append_eq_append_cons h with ⟨m, rfl⟩ | ⟨m, rfl, hrest⟩
  · -- the line stands behind the text
    have hclose : m ++ line ++ after = List.replicate n a ++ [b] := by simpa using h
    obtain ⟨t, hreplicate, rfl⟩ := append_append_eq_concat hline hne hclose
    have hcount := congrArg List.length hreplicate
    simp only [List.length_replicate, List.length_append] at hcount
    obtain rfl : m = [] := List.eq_nil_of_length_eq_zero (by omega)
    obtain rfl : t = [] := List.eq_nil_of_length_eq_zero (by omega)
    exact ⟨rfl, by simpa using hreplicate.symm, rfl⟩
  · -- the line begins in the text, and so ends in it
    rcases append_eq_append_cons hrest with ⟨m', rfl⟩ | ⟨m', rfl, -⟩
    · exact absurd (by simp) hline
    · exact absurd (hrun.trans ⟨before, m', by simp⟩) hs

end Core
