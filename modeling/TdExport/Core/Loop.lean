import Mathlib.Tactic

/-!
# Loops

A loop of an imperative program is a step function: from a state it either goes on to the next
state or stops. `Loop.run` executes a loop for a bounded number of turns, so a loop that may not
stop still has a definition by recursion; that a loop stops is then a theorem about it.
-/

namespace Core.Loop

variable {σ : Type*}

/-- The state in which the loop `step` stops when started from `s`; `none` when it needs more
than `fuel` turns. -/
def run (step : σ → Option σ) : ℕ → σ → Option σ
  | 0, s =>
    match step s with
    | none => some s
    | some _ => none
  | fuel + 1, s =>
    match step s with
    | none => some s
    | some s' => run step fuel s'

variable {step : σ → Option σ} {s s' r : σ} {fuel : ℕ}

lemma run_of_stop (h : step s = none) : run step fuel s = some s := by
  cases fuel <;> simp [run, h]

lemma run_succ_of_step (h : step s = some s') : run step (fuel + 1) s = run step fuel s' := by
  simp [run, h]

/-- A loop whose body keeps an invariant and decreases a measure stops, in a state with the
invariant. -/
theorem run_total (Inv : σ → Prop) (μ : σ → ℕ)
    (hstep : ∀ s s', Inv s → step s = some s' → Inv s' ∧ μ s' < μ s)
    (hs : Inv s) (hfuel : μ s ≤ fuel) :
    ∃ r, run step fuel s = some r ∧ Inv r ∧ step r = none := by
  induction fuel generalizing s with
  | zero =>
    cases hst : step s with
    | none => exact ⟨s, run_of_stop hst, hs, hst⟩
    | some s' =>
      have := (hstep s s' hs hst).2
      omega
  | succ fuel ih =>
    cases hst : step s with
    | none => exact ⟨s, run_of_stop hst, hs, hst⟩
    | some s' =>
      obtain ⟨hs', hlt⟩ := hstep s s' hs hst
      rw [run_succ_of_step hst]
      exact ih hs' (by omega)

/-- A loop that goes through the states `state n`, one after the other, while `p n` holds. -/
theorem run_count {state : ℕ → σ} {p : ℕ → Prop} [DecidablePred p]
    (hstep : ∀ n, step (state n) = if p n then some (state (n + 1)) else none) {n : ℕ} :
    run step fuel (state n) = some r ↔
      ∃ m, n ≤ m ∧ m ≤ n + fuel ∧ (∀ k, n ≤ k → k < m → p k) ∧ ¬ p m ∧ r = state m := by
  induction fuel generalizing n with
  | zero =>
    by_cases hp : p n
    · have hrun : run step 0 (state n) = none := by simp [run, hstep, hp]
      rw [hrun]
      constructor
      · intro h
        cases h
      · rintro ⟨m, hnm, hmn, -, hpm, -⟩
        exact absurd (le_antisymm hmn hnm ▸ hp) hpm
    · rw [run_of_stop (by rw [hstep, if_neg hp])]
      constructor
      · intro h
        exact ⟨n, le_rfl, le_rfl, fun k hk hkn => absurd hkn hk.not_gt, hp,
          (Option.some_inj.mp h).symm⟩
      · rintro ⟨m, hnm, hmn, -, -, rfl⟩
        obtain rfl : m = n := le_antisymm hmn hnm
        rfl
  | succ fuel ih =>
    by_cases hp : p n
    · rw [run_succ_of_step (by rw [hstep, if_pos hp]), ih]
      constructor
      · rintro ⟨m, hnm, hmn, hbefore, hpm, hr⟩
        refine ⟨m, by omega, by omega, fun k hk hkm => ?_, hpm, hr⟩
        rcases hk.eq_or_lt with rfl | hlt
        · exact hp
        · exact hbefore k hlt hkm
      · rintro ⟨m, hnm, hmn, hbefore, hpm, hr⟩
        have hne : n ≠ m := fun heq => hpm (heq ▸ hp)
        exact ⟨m, by omega, by omega, fun k hk => hbefore k (by omega), hpm, hr⟩
    · rw [run_of_stop (by rw [hstep, if_neg hp])]
      constructor
      · intro h
        exact ⟨n, le_rfl, by omega, fun k hk hkn => absurd hkn hk.not_gt, hp,
          (Option.some_inj.mp h).symm⟩
      · rintro ⟨m, hnm, -, hbefore, -, rfl⟩
        rcases hnm.eq_or_lt with rfl | hlt
        · rfl
        · exact absurd (hbefore n le_rfl hlt) hp

end Core.Loop
