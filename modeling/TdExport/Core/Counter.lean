import TdExport.Core.Loop

/-!
# Loops that count

A loop that counts its turns from 2 on, in a signed number of 32 bits. What the addition does at the
end of the range depends on how the program is built.
-/

namespace Core

/-! ### The number -/

/-- What an addition does that leaves the range of its type. It depends on how the program is
built. -/
inductive Overflow
  | panics
  | wraps
  deriving DecidableEq, Repr

def i32Min : ℤ := -2 ^ 31
def i32Max : ℤ := 2 ^ 31 - 1

namespace Overflow

/-- `n += 1` for an `i32`; `none` is a panic. -/
def increment (o : Overflow) (n : ℤ) : Option ℤ :=
  if n = i32Max then
    match o with
    | .panics => none
    | .wraps => some i32Min
  else some (n + 1)

/-- The first number that a loop uses, and the last. -/
def lowest : Overflow → ℤ
  | .panics => 2
  | .wraps => i32Min

def highest : Overflow → ℤ
  | .panics => i32Max - 1
  | .wraps => i32Max

/-- How many numbers there are. -/
def limit : Overflow → ℕ
  | .panics => 2 ^ 31 - 3
  | .wraps => 2 ^ 32

lemma limit_le (o : Overflow) : o.limit ≤ 2 ^ 32 := by cases o <;> decide

end Overflow

/-- The number after `k` turns, where it wraps. -/
def counter : ℕ → ℤ
  | 0 => 2
  | k + 1 => if counter k = i32Max then i32Min else counter k + 1

lemma counter_eq (k : ℕ) : counter k = ((k : ℤ) + 2 + 2 ^ 31) % 2 ^ 32 - 2 ^ 31 := by
  induction k with
  | zero => rfl
  | succ k ih =>
    rw [counter, ih, i32Max, i32Min]
    push_cast
    split_ifs <;> omega

variable {o : Overflow} {k : ℕ}

lemma i32Min_le_counter (k : ℕ) : i32Min ≤ counter k := by
  rw [i32Min, counter_eq]
  omega

lemma counter_le_i32Max (k : ℕ) : counter k ≤ i32Max := by
  rw [i32Max, counter_eq]
  omega

lemma counter_of_le (hk : k + 2 < 2 ^ 31) : counter k = k + 2 := by
  rw [counter_eq]
  omega

/-- The number goes through its range once, and then again. -/
lemma counter_injOn : Set.InjOn counter {k | k < 2 ^ 32} := by
  intro m hm n hn h
  have hm : m < 2 ^ 32 := hm
  have hn : n < 2 ^ 32 := hn
  rw [counter_eq, counter_eq] at h
  omega

lemma counter_mod (k : ℕ) : counter (k % 2 ^ 32) = counter k := by
  rw [counter_eq, counter_eq]
  omega

lemma counter_add_period (k : ℕ) : counter (k + 2 ^ 32) = counter k := by
  rw [counter_eq, counter_eq]
  omega

lemma increment_counter_wraps (k : ℕ) :
    Overflow.wraps.increment (counter k) = some (counter (k + 1)) := by
  rw [Overflow.increment, counter]
  split_ifs <;> rfl

/-- With `limit` the number is at its maximum. -/
lemma increment_counter_panics (hk : k ≤ Overflow.panics.limit) :
    Overflow.panics.increment (counter k) =
      if k < Overflow.panics.limit then some (counter (k + 1)) else none := by
  have hlimit : Overflow.panics.limit = 2 ^ 31 - 3 := rfl
  rw [Overflow.increment, i32Max, counter_of_le (by omega)]
  split_ifs with h hlt hlt
  · omega
  · rfl
  · rw [counter_of_le (by omega)]
    exact congrArg some (by push_cast; ring)
  · omega

lemma counter_mem (hk : k < o.limit) : counter k ∈ Set.Icc o.lowest o.highest := by
  cases o with
  | panics =>
    have hlimit : k < 2 ^ 31 - 3 := hk
    have hlowest : Overflow.panics.lowest = 2 := rfl
    have hhighest : Overflow.panics.highest = i32Max - 1 := rfl
    rw [counter_of_le (by omega), Set.mem_Icc, hlowest, hhighest, i32Max]
    omega
  | wraps => exact ⟨i32Min_le_counter k, counter_le_i32Max k⟩

/-! ### The loop -/

section CountedLoop

variable {σ : Type*} (o : Overflow) (p : σ → Prop) [DecidablePred p] (next : σ → ℤ → σ)

/-- One turn of a loop that goes on while `p`, with the number of the turn. There is no state after
a panic. -/
def Overflow.countStep : Option (σ × ℤ) → Option (Option (σ × ℤ))
  | none => none
  | some (s, n) => if p s then some ((o.increment n).map fun n' => (next s n, n')) else none

/-- The whole loop, with the next number in the end; `none` when it panics or needs more turns. -/
def Overflow.count (turns : ℕ) (s : σ) : Option (σ × ℤ) :=
  (Loop.run (o.countStep p next) turns (some (s, 2))).join

/-- The state after `k` turns. -/
def iterate (s : σ) : ℕ → σ
  | 0 => s
  | k + 1 => next (iterate s k) (counter k)

/-- Before turn `k` there is no panic. -/
def Overflow.Allows (k : ℕ) : Prop := o = .wraps ∨ k ≤ o.limit

instance (k : ℕ) : Decidable (o.Allows k) := instDecidableOr

variable {o p next} {s r : σ} {turns : ℕ} {z : ℤ}

lemma Overflow.allows_of_le (h : k ≤ o.limit) : o.Allows k := .inr h

lemma Overflow.Allows.mono {m : ℕ} (h : o.Allows k) (hm : m ≤ k) : o.Allows m :=
  h.imp id hm.trans

lemma Overflow.increment_counter (h : o.Allows k) :
    o.increment (counter k) = if o.Allows (k + 1) then some (counter (k + 1)) else none := by
  cases o with
  | panics =>
    have hk : k ≤ Overflow.panics.limit := h.resolve_left Overflow.noConfusion
    rw [increment_counter_panics hk]
    refine if_congr ?_ rfl rfl
    exact ⟨.inr, fun h => h.resolve_left Overflow.noConfusion⟩
  | wraps => rw [increment_counter_wraps, if_pos (.inl rfl)]

variable (o next s) in
/-- The state when the loop comes to turn `k`. -/
def Overflow.countState (k : ℕ) : Option (σ × ℤ) :=
  if o.Allows k then some (iterate next s k, counter k) else none

lemma Overflow.countState_zero : o.countState next s 0 = some (s, 2) := by
  rw [countState, if_pos (Overflow.allows_of_le (Nat.zero_le _)), iterate, counter]

lemma Overflow.countStep_countState (k : ℕ) :
    o.countStep p next (o.countState next s k) =
      if o.Allows k ∧ p (iterate next s k) then some (o.countState next s (k + 1)) else none := by
  rw [countState]
  by_cases hk : o.Allows k
  · rw [if_pos hk, countStep, Overflow.increment_counter hk]
    refine if_congr (by rw [and_iff_right hk]) ?_ rfl
    rw [countState]
    split_ifs <;> rfl
  · rw [if_neg hk, if_neg fun h => hk h.1]
    rfl

/-- Where a loop that counts stops. -/
theorem Overflow.count_eq_some_iff :
    o.count p next turns s = some (r, z) ↔ ∃ k ≤ turns, o.Allows k ∧
      (∀ m < k, p (iterate next s m)) ∧ ¬ p (iterate next s k) ∧
      r = iterate next s k ∧ z = counter k := by
  rw [count, ← Overflow.countState_zero, Option.join_eq_some_iff,
    Loop.run_count Overflow.countStep_countState]
  constructor
  · rintro ⟨k, -, hk, htaken, hfree, hr⟩
    rw [countState] at hr
    split_ifs at hr with hallows
    obtain ⟨hr, hz⟩ := Prod.mk.inj (Option.some_inj.mp hr)
    rw [Nat.zero_add] at hk
    refine ⟨k, hk, hallows, fun m hm => (htaken m m.zero_le hm).2, fun h => ?_, hr, hz⟩
    exact hfree ⟨hallows, h⟩
  · rintro ⟨k, hk, hallows, htaken, hfree, hr, hz⟩
    refine ⟨k, k.zero_le, ?_, fun m _ hm => ⟨hallows.mono hm.le, htaken m hm⟩,
      fun h => hfree h.2, ?_⟩
    · rwa [Nat.zero_add]
    · rw [countState, if_pos hallows, hr, hz]

lemma Overflow.count_of_not (h : ¬ p s) : o.count p next turns s = some (s, 2) :=
  Overflow.count_eq_some_iff.mpr ⟨0, turns.zero_le, Overflow.allows_of_le o.limit.zero_le,
    fun m hm => absurd hm m.not_lt_zero, h, rfl, rfl⟩

lemma Overflow.count_mono {turns' : ℕ} (hturns : turns ≤ turns')
    (h : o.count p next turns s = some (r, z)) : o.count p next turns' s = some (r, z) := by
  obtain ⟨k, hk, hstop⟩ := Overflow.count_eq_some_iff.mp h
  exact Overflow.count_eq_some_iff.mpr ⟨k, hk.trans hturns, hstop⟩

/-- What every turn keeps holds in the end. -/
theorem Overflow.count_inv {Inv : σ → Prop} (hstep : ∀ s n, Inv s → p s → Inv (next s n))
    (hs : Inv s) (h : o.count p next turns s = some (r, z)) : Inv r ∧ ¬ p r := by
  obtain ⟨k, -, -, htaken, hstop, rfl, -⟩ := Overflow.count_eq_some_iff.mp h
  refine ⟨?_, hstop⟩
  clear h hstop
  induction k with
  | zero => exact hs
  | succ k ih =>
    exact hstep _ _ (ih fun m hm => htaken m (Nat.lt_succ_of_lt hm)) (htaken k (Nat.lt_succ_self k))

/-- A loop that sees a part of the state. -/
theorem Overflow.count_map {τ : Type*} {p' : τ → Prop} [DecidablePred p'] {next' : τ → ℤ → τ}
    (g : σ → τ) (hp : ∀ s, p' (g s) ↔ p s) (hnext : ∀ s n, next' (g s) n = g (next s n)) :
    o.count p' next' turns (g s) = (o.count p next turns s).map fun r => (g r.1, r.2) := by
  have hiterate : ∀ k, iterate next' (g s) k = g (iterate next s k) := by
    intro k
    induction k with
    | zero => rfl
    | succ k ih => rw [iterate, ih, hnext, iterate]
  ext ⟨r, z⟩
  simp only [Option.map_eq_some_iff, Prod.exists, Prod.mk.injEq, Overflow.count_eq_some_iff,
    hiterate, hp]
  constructor
  · rintro ⟨k, hk, hallows, htaken, hstop, rfl, rfl⟩
    exact ⟨_, _, ⟨k, hk, hallows, htaken, hstop, rfl, rfl⟩, rfl, rfl⟩
  · rintro ⟨_, _, ⟨k, hk, hallows, htaken, hstop, rfl, rfl⟩, rfl, rfl⟩
    exact ⟨k, hk, hallows, htaken, hstop, rfl, rfl⟩

/-! ### Loops that look for a value -/

section Search

variable {named : ℤ → σ} {first : σ}

/-- The first value, and those with a number. -/
def candidateOf (named : ℤ → σ) (first : σ) : ℕ → σ
  | 0 => first
  | k + 1 => named (counter k)

lemma iterate_named (k : ℕ) :
    iterate (fun _ n => named n) first k = candidateOf named first k := by
  cases k <;> rfl

omit [DecidablePred p] in
/-- When all candidates were refused, they come again. -/
lemma le_limit_of_allows (hk : o.Allows k) (hrefused : ∀ m < k, p (candidateOf named first m))
    (hfree : ¬ p (candidateOf named first k)) : k ≤ o.limit := by
  rcases hk with rfl | hk
  · by_contra hlt
    have hlt : 2 ^ 32 < k := Nat.not_le.mp hlt
    obtain ⟨m, rfl⟩ : ∃ m, k = m + 1 + 2 ^ 32 := ⟨k - 1 - 2 ^ 32, by omega⟩
    have hagain : candidateOf named first (m + 1 + 2 ^ 32) = candidateOf named first (m + 1) := by
      have hsucc : m + 1 + 2 ^ 32 = m + 2 ^ 32 + 1 := by omega
      rw [hsucc, candidateOf, candidateOf, counter_add_period]
    rw [hagain] at hfree
    exact hfree (hrefused (m + 1) (by omega))
  · exact hk

/-- Where the search for a value stops. -/
theorem Overflow.count_named_eq_some_iff :
    o.count p (fun _ n => named n) turns first = some (r, z) ↔ ∃ k ≤ turns, k ≤ o.limit ∧
      (∀ m < k, p (candidateOf named first m)) ∧ ¬ p (candidateOf named first k) ∧
      r = candidateOf named first k ∧ z = counter k := by
  simp only [Overflow.count_eq_some_iff, iterate_named]
  constructor
  · rintro ⟨k, hk, hallows, hrefused, hfree, hr⟩
    exact ⟨k, hk, le_limit_of_allows hallows hrefused hfree, hrefused, hfree, hr⟩
  · rintro ⟨k, hk, hlimit, h⟩
    exact ⟨k, hk, Overflow.allows_of_le hlimit, h⟩

end Search

end CountedLoop

end Core
