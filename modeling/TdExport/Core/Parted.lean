import TdExport.Core.Str

/-!
# Neighbours taken apart

An element put between every `a` and the `b` that follows it. No `a` stands before a `b` any more,
and no other neighbours are made than those of the new element.
-/

namespace Core

section Lists

variable {α : Type*} [DecidableEq α] {a x b c d : α} {s : List α} {R : α → α → Prop}

/-- Put `x` between every `a` and the `b` that follows it. -/
def parted (a x b : α) : List α → List α
  | [] => []
  | [c] => [c]
  | c :: d :: s =>
    if c = a ∧ d = b then c :: x :: parted a x b (d :: s) else c :: parted a x b (d :: s)

lemma head?_parted (a x b : α) (s : List α) : (parted a x b s).head? = s.head? := by
  fun_cases parted a x b s <;> rfl

/-- What holds of all neighbours except `a` before `b`, and of the neighbours of `x`, holds of all
neighbours in the end. -/
theorem isChain_parted (hs : s.IsChain fun c d => R c d ∨ (c = a ∧ d = b)) (hax : R a x)
    (hxb : R x b) : (parted a x b s).IsChain R := by
  fun_induction parted a x b s with
  | case1 => exact .nil
  | case2 c => exact .singleton c
  | case3 c d s hpair ih =>
    obtain ⟨rfl, rfl⟩ := hpair
    have hrest := (ih hs.tail).cons (x := x) (by simpa [head?_parted] using hxb)
    exact hrest.cons (by simpa using hax)
  | case4 c d s hpair ih =>
    obtain ⟨hcd, hds⟩ := List.isChain_cons_cons.mp hs
    exact (ih hds).cons (by simpa [head?_parted, hpair] using hcd)

end Lists

/-- Taking neighbours apart is what the replacement of a text of two characters does. -/
lemma replaceStr_eq_parted {a x b : Char} (hab : a ≠ b) (s : Str) :
    replaceStr [a, b] [a, x, b] s = parted a x b s := by
  rw [replaceStr]
  fun_induction parted a x b s with
  | case1 => rfl
  | case2 c =>
    rw [replaceFrom, if_neg (by simp [List.isPrefixOf])]
    rfl
  | case3 c d s hpair ih =>
    obtain ⟨rfl, rfl⟩ := hpair
    have hrest : replaceFrom [c, d] [c, x, d] 0 (d :: s) =
        d :: replaceFrom [c, d] [c, x, d] 0 s := by
      rw [replaceFrom, if_neg (by simp [List.isPrefixOf, hab])]
    rw [← ih, hrest, replaceFrom, if_pos (by simp)]
    rfl
  | case4 c d s hpair ih =>
    have hpre : ¬List.isPrefixOf [a, b] (c :: d :: s) = true := by
      intro hpre
      obtain ⟨hca, hdb⟩ : a = c ∧ b = d := by simpa using hpre
      exact hpair ⟨hca.symm, hdb.symm⟩
    rw [replaceFrom, if_neg hpre, ih]

/-- Two characters that never follow each other are no part of the text. -/
lemma not_infix_of_isChain {a b : Char} {s : Str} (h : s.IsChain fun c d => ¬(c = a ∧ d = b)) :
    ¬[a, b] <:+: s := by
  rintro ⟨t, r, hs⟩
  have hsplit : s = t ++ a :: b :: r := by simp [← hs]
  exact List.isChain_iff_forall_rel_of_append_cons_cons.mp h hsplit ⟨rfl, rfl⟩

end Core
