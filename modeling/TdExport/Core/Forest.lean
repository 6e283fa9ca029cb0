import Mathlib.Data.List.Count
import Mathlib.Logic.Relation
import Mathlib.Tactic

/-!
# Forests

A forest is a partial function to the parent of an element. Where a rank goes down towards the
parents, a walk along them that is bounded by the number of elements ends at the root.
-/

namespace Core

open Relation

variable {α β : Type*} {parent : α → Option α} {a b r s : α}

/-- Go to the parent, at most `n` times. -/
def climb (parent : α → Option α) : ℕ → α → α
  | 0, a => a
  | n + 1, a =>
    match parent a with
    | none => a
    | some b => climb parent n b

/-- `r` is the root of the tree of `a`. -/
def IsRoot (parent : α → Option α) (r a : α) : Prop :=
  ReflTransGen (fun a b => parent a = some b) a r ∧ parent r = none

lemma isRoot_self (h : parent a = none) : IsRoot parent a a := ⟨.refl, h⟩

lemma IsRoot.of_parent (hab : parent a = some b) (h : IsRoot parent r b) : IsRoot parent r a :=
  ⟨.head hab h.1, h.2⟩

/-- Each element has one root. -/
theorem IsRoot.unique (hr : IsRoot parent r a) (hs : IsRoot parent s a) : r = s := by
  obtain ⟨hr, hrnone⟩ := hr
  induction hr using ReflTransGen.head_induction_on with
  | refl =>
    rcases ReflTransGen.cases_head hs.1 with heq | ⟨c, hc, -⟩
    · exact heq
    · rw [hrnone] at hc
      cases hc
  | head hab _ ih =>
    rcases ReflTransGen.cases_head hs.1 with rfl | ⟨c, hc, hcs⟩
    · have hnone := hs.2
      rw [hab] at hnone
      cases hnone
    · obtain rfl := Option.some_inj.mp (hab.symm.trans hc)
      exact ih ⟨hcs, hs.2⟩

section Rank

variable [LinearOrder β] {rank : α → β} {univ : List α}

/-- Below the rank of the parent there are fewer elements. -/
lemma countP_rank_lt (hb : b ∈ univ) (hba : rank b < rank a) :
    univ.countP (rank · < rank b) < univ.countP (rank · < rank a) := by
  obtain ⟨l₁, l₂, rfl⟩ := List.append_of_mem hb
  have hmono (l : List α) : l.countP (rank · < rank b) ≤ l.countP (rank · < rank a) := by
    apply List.countP_mono_left
    intro x _ hx
    simp only [decide_eq_true_eq] at hx ⊢
    exact hx.trans hba
  have h₁ := hmono l₁
  have h₂ := hmono l₂
  simp only [List.countP_append, List.countP_cons, lt_self_iff_false, hba, decide_true,
    decide_false, if_true, Bool.false_eq_true, if_false]
  omega

/-- The walk ends at the root when it may take as many turns as there are elements of a smaller
rank. -/
lemma isRoot_climb_of_countP (hmem : ∀ a b, parent a = some b → b ∈ univ)
    (hrank : ∀ a ∈ univ, ∀ b, parent a = some b → rank b < rank a) {n : ℕ} (ha : a ∈ univ)
    (hn : univ.countP (rank · < rank a) ≤ n) : IsRoot parent (climb parent n a) a := by
  induction n generalizing a with
  | zero =>
    cases hab : parent a with
    | none => exact isRoot_self hab
    | some b =>
      have hlt := countP_rank_lt (hmem a b hab) (hrank a ha b hab)
      omega
  | succ n ih =>
    rw [climb]
    cases hab : parent a with
    | none => exact isRoot_self hab
    | some b =>
      have hlt := countP_rank_lt (hmem a b hab) (hrank a ha b hab)
      exact .of_parent hab (ih (hmem a b hab) (by omega))

/-- The walk that takes at most as many turns as there are elements ends at the root. -/
theorem isRoot_climb (rank : α → β) (hmem : ∀ a b, parent a = some b → b ∈ univ)
    (hrank : ∀ a ∈ univ, ∀ b, parent a = some b → rank b < rank a) (ha : a ∈ univ) :
    IsRoot parent (climb parent univ.length a) a :=
  isRoot_climb_of_countP hmem hrank ha List.countP_le_length

end Rank

end Core
