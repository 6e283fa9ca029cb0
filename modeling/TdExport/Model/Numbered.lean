import TdExport.Core.Counter
import TdExport.Model.Basic

/-!
# Numbered names

The text that tells equal names apart: `~` and a number.
-/

namespace TdExport

open Core

def numberText (z : ℤ) : Str := '~' :: intStr z

variable {z : ℤ} {c : Char}

lemma mem_numberText (hc : c ∈ numberText z) : (c = '~' ∨ c = '-') ∨ c.isDigit = true := by
  rcases List.mem_cons.mp hc with rfl | hc
  · exact .inl (.inl rfl)
  · exact (mem_intStr hc).imp .inr id

lemma toLower_of_mem_numberText (hc : c ∈ numberText z) : c.toNat < 128 ∧ c.toLower = c := by
  rcases mem_numberText hc with (rfl | rfl) | hdigit
  · decide
  · decide
  · exact toLower_of_isDigit hdigit

lemma tilde_not_mem_intStr (z : ℤ) : '~' ∉ intStr z := by
  intro h
  rcases mem_intStr h with h | h
  · exact absurd h (by decide)
  · exact absurd h (by decide)

/-- The text of an `i32` is short. -/
lemma length_numberText (hlow : i32Min ≤ z) (hhigh : z ≤ i32Max) :
    (numberText z).length ≤ 12 := by
  rw [i32Min] at hlow
  rw [i32Max] at hhigh
  rw [numberText, List.length_cons]
  cases z with
  | ofNat n =>
    rw [Int.ofNat_eq_natCast] at hhigh
    have hdigits : (natStr n).length ≤ 10 := length_natStr (by norm_num) (by omega)
    rw [Int.ofNat_eq_natCast, intStr_natCast]
    omega
  | negSucc n =>
    have hdigits : (natStr (n + 1)).length ≤ 10 := length_natStr (by norm_num) (by omega)
    rw [intStr_negSucc, List.length_cons]
    omega

/-- What candidate `k` puts behind a name: nothing, then `~2`, `~3` … -/
def numberTail : ℕ → Str
  | 0 => []
  | k + 1 => numberText (counter k)

lemma toLower_of_mem_numberTail {k : ℕ} (hc : c ∈ numberTail k) :
    c.toNat < 128 ∧ c.toLower = c := by
  cases k with
  | zero => exact absurd hc List.not_mem_nil
  | succ k => exact toLower_of_mem_numberText hc

lemma length_numberTail (k : ℕ) : (numberTail k).length ≤ 12 := by
  cases k with
  | zero => exact Nat.zero_le _
  | succ k => exact length_numberText (i32Min_le_counter k) (counter_le_i32Max k)

/-- No two candidates have one number until all numbers were used. -/
lemma numberTail_injOn : Set.InjOn numberTail {k | k ≤ 2 ^ 32} := by
  rintro (_ | m) hm (_ | n) hn h
  · rfl
  · cases h
  · cases h
  · have hz := intStr_injective (List.cons.inj h).2
    exact congrArg (· + 1) (counter_injOn (Nat.lt_of_succ_le hm) (Nat.lt_of_succ_le hn) hz)

end TdExport
