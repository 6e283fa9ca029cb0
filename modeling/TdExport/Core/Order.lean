import Mathlib.Data.List.Infix
import Mathlib.Data.Fintype.EquivFin
import Mathlib.Order.WellFounded
import Mathlib.Tactic

/-!
# Orders that respect a dependency relation

A list is built by adding elements whose dependencies are there already, for as long as there is
one. What depends on no cycle is then preceded by everything it depends on.
-/

namespace Core

variable {α β : Type*}

/-- Every occurrence of `b` in `l` has `a` before it. -/
def Before (l : List α) (a b : α) : Prop := ∀ l₁ l₂, l = l₁ ++ b :: l₂ → a ∈ l₁

lemma Before.map {f : α → β} {l : List α} {a : α} {b : β}
    (h : ∀ x ∈ l, f x = b → Before l a x) : Before (l.map f) (f a) b := by
  intro l₁ l₂ hl
  obtain ⟨m₁, m, rfl, rfl, hm⟩ := List.map_eq_append_iff.mp hl
  obtain ⟨x, m₂, rfl, hx, -⟩ := List.map_eq_cons_iff.mp hm
  exact List.mem_map_of_mem (h x (by simp) hx m₁ m₂ rfl)

/-- An occurrence in `l₁ ++ l₂` is one in `l₁` or one in `l₂`. -/
lemma append_eq_append_cons {l₁ l₂ m₁ m₂ : List α} {b : α} (h : l₁ ++ l₂ = m₁ ++ b :: m₂) :
    (∃ m, l₁ = m₁ ++ b :: m) ∨ ∃ m, m₁ = l₁ ++ m ∧ l₂ = m ++ b :: m₂ := by
  rcases List.append_eq_append_iff.mp h with ⟨m, rfl, rfl⟩ | ⟨m, rfl, hm⟩
  · exact .inr ⟨m, rfl, rfl⟩
  · cases m with
    | nil => exact .inr ⟨[], by simp, by simpa using hm.symm⟩
    | cons c m =>
      obtain ⟨rfl, -⟩ := List.cons.inj hm
      exact .inl ⟨m, rfl⟩

/-- A text without `c` does not reach over a `c`. -/
lemma infix_append_cons_iff {t l₁ l₂ : List α} {c : α} (hc : c ∉ t) :
    t <:+: l₁ ++ c :: l₂ ↔ t <:+: l₁ ∨ t <:+: l₂ := by
  constructor
  · rintro ⟨m₁, m₂, heq⟩
    rcases append_eq_append_cons heq with ⟨m, hm⟩ | ⟨m, rfl, -⟩
    · rcases append_eq_append_cons hm with ⟨k, rfl⟩ | ⟨k, -, rfl⟩
      · have hl₂ : k ++ t ++ m₂ = l₂ := by simpa using heq
        exact .inr ⟨k, m₂, hl₂⟩
      · exact absurd (by simp) hc
    · exact .inl ⟨m₁, m, rfl⟩
  · rintro (h | h)
    · exact h.trans (List.prefix_append _ _).isInfix
    · exact h.trans ((List.suffix_cons c l₂).trans (List.suffix_append l₁ _)).isInfix

section Append

variable {l₁ l₂ : List α} {a b : α}

lemma Before.append_left (h : Before l₁ a b) (hb : b ∉ l₂) : Before (l₁ ++ l₂) a b := by
  intro m₁ m₂ heq
  rcases append_eq_append_cons heq with ⟨m, rfl⟩ | ⟨m, -, rfl⟩
  · exact h m₁ m rfl
  · exact absurd (by simp) hb

lemma Before.append_right (h : Before l₂ a b) (hb : b ∉ l₁) : Before (l₁ ++ l₂) a b := by
  intro m₁ m₂ heq
  rcases append_eq_append_cons heq with ⟨m, rfl⟩ | ⟨m, rfl, hm⟩
  · exact absurd (by simp) hb
  · exact List.mem_append_right _ (h m m₂ hm)

lemma before_append (ha : a ∈ l₁) (hb : b ∉ l₁) : Before (l₁ ++ l₂) a b := by
  intro m₁ m₂ heq
  rcases append_eq_append_cons heq with ⟨m, rfl⟩ | ⟨m, rfl, -⟩
  · exact absurd (by simp) hb
  · exact List.mem_append_left _ ha

end Append

/-! ### Elements without cycles -/

variable {dep : α → α → Prop}

/-- From `x` no chain of dependencies leads to a cycle. -/
def AcyclicFrom (dep : α → α → Prop) (x : α) : Prop :=
  ∀ y, Relation.ReflTransGen dep x y → ¬ Relation.TransGen dep y y

/-- In a finite relation such an element is accessible: its chains of dependencies end. -/
theorem AcyclicFrom.acc {univ : List α} (huniv : ∀ x y, dep x y → y ∈ univ) {x : α}
    (h : AcyclicFrom dep x) : Acc (fun b a => dep a b) x := by
  let S := {y // Relation.ReflTransGen dep x y}
  let r : S → S → Prop := fun b a => Relation.TransGen dep a.1 b.1
  have hmem (s : S) : s.1 ∈ x :: univ := by
    rcases Relation.ReflTransGen.cases_tail s.2 with heq | ⟨z, -, hz⟩
    · rw [heq]
      exact List.mem_cons_self
    · exact List.mem_cons_of_mem _ (huniv _ _ hz)
  have hfin : Finite S := by
    refine Set.Finite.subset (List.finite_toSet (x :: univ)) ?_
    exact fun y hy => hmem ⟨y, hy⟩
  have htrans : IsTrans S r := ⟨fun _ _ _ hab hbc => hbc.trans hab⟩
  have hirrefl : Std.Irrefl r := ⟨fun s => h s.1 s.2⟩
  have hwf : WellFounded r := Finite.wellFounded_of_trans_of_irrefl r
  have hacc : ∀ s : S, Acc (fun b a => dep a b) s.1 := by
    intro s
    induction s using hwf.induction with
    | _ s ih =>
      apply Acc.intro _
      intro y hy
      exact ih ⟨y, s.2.tail hy⟩ (Relation.TransGen.single hy)
  exact hacc ⟨x, .refl⟩

/-- An accessible element leads to no cycle. -/
lemma AcyclicFrom.of_acc {x : α} (h : Acc (fun b a => dep a b) x) : AcyclicFrom dep x := by
  intro y hxy
  have hy : Acc (fun b a => dep a b) y := by
    induction hxy with
    | refl => exact h
    | tail _ hab ih => exact ih.inv hab
  induction hy with
  | intro y _ ih =>
    intro hyy
    obtain ⟨z, hyz, hzy⟩ := Relation.TransGen.head'_iff.mp hyy
    exact ih z hyz (hxy.tail hyz) (Relation.TransGen.tail' hzy hyz)

/-! ### Adding what is ready -/

/-- Nothing outside `done` has all its dependencies in `done`. -/
def Stuck (dep : α → α → Prop) (univ done : List α) : Prop :=
  ∀ x ∈ univ, x ∉ done → ∃ y ∈ univ, dep x y ∧ y ∉ done

/-- What is missing when nothing is ready reaches a cycle. -/
lemma Stuck.not_acc {univ done : List α} (h : Stuck dep univ done) {x : α} (hx : x ∈ univ)
    (hdone : x ∉ done) : ¬ Acc (fun b a => dep a b) x := by
  intro hacc
  induction hacc with
  | intro x _ ih =>
    obtain ⟨y, hy, hxy, hydone⟩ := h x hx hdone
    exact ih y hxy hy hydone

/-- Each element of `order` comes after all it depends on, or after a point at which nothing that
was still missing was ready. -/
def ReadyFirst (dep : α → α → Prop) (univ order : List α) : Prop :=
  ∀ l₁ x l₂, order = l₁ ++ x :: l₂ →
    (∀ y, dep x y → y ∈ l₁) ∨ ∃ done, done <+: l₁ ∧ Stuck dep univ done

variable {univ order : List α} {x : α}

lemma ReadyFirst.nil : ReadyFirst dep univ [] := by
  intro l₁ x l₂ h
  simp at h

lemma ReadyFirst.concat (h : ReadyFirst dep univ order)
    (hx : (∀ y, dep x y → y ∈ order) ∨ Stuck dep univ order) :
    ReadyFirst dep univ (order ++ [x]) := by
  have hlast : (∀ y, dep x y → y ∈ order) ∨ ∃ done, done <+: order ∧ Stuck dep univ done :=
    hx.imp id fun hstuck => ⟨order, List.prefix_rfl, hstuck⟩
  intro l₁ y l₂ heq
  rcases append_eq_append_cons heq with ⟨m, rfl⟩ | ⟨m, rfl, hm⟩
  · exact h l₁ y m rfl
  · obtain ⟨rfl, hy⟩ : m = [] ∧ x = y := by
      cases m with
      | nil => exact ⟨rfl, (List.cons.inj hm).1⟩
      | cons z m => simp at hm
    rw [← hy]
    simpa using hlast

/-- When nothing is ready the rest may follow in any order. -/
lemma ReadyFirst.append (h : ReadyFirst dep univ order) (hstuck : Stuck dep univ order)
    (rest : List α) : ReadyFirst dep univ (order ++ rest) := by
  intro l₁ x l₂ heq
  rcases append_eq_append_cons heq with ⟨m, rfl⟩ | ⟨m, rfl, -⟩
  · exact h l₁ x m rfl
  · exact .inr ⟨order, List.prefix_append _ _, hstuck⟩

/-- An element from which no cycle is reached comes after all it depends on. -/
theorem ReadyFirst.before (h : ReadyFirst dep univ order) (hnodup : order.Nodup)
    (hx : x ∈ univ) (hacc : Acc (fun b a => dep a b) x) {y : α} (hxy : dep x y) :
    Before order y x := by
  intro l₁ l₂ heq
  rcases h l₁ x l₂ heq with hready | ⟨done, hpre, hstuck⟩
  · exact hready y hxy
  · have hnot : x ∉ done := by
      intro hmem
      rw [heq] at hnodup
      exact (List.nodup_append.mp hnodup).2.2 x (hpre.subset hmem) x List.mem_cons_self rfl
    exact absurd hacc (hstuck.not_acc hx hnot)

/-! ### The greedy order -/

section Greedy

variable [DecidableEq α]

/-- `edges` has `(x, y)` when `x` depends on `y`. -/
def Needs (edges : List (α × α)) (x y : α) : Prop := (x, y) ∈ edges

/-- All that `x` depends on is in `done`. -/
def isReady (edges : List (α × α)) (done : List α) (x : α) : Bool :=
  edges.all fun e => e.1 ≠ x || e.2 ∈ done

lemma isReady_iff {edges : List (α × α)} {done : List α} :
    isReady edges done x = true ↔ ∀ y, Needs edges x y → y ∈ done := by
  simp only [isReady, List.all_eq_true, Bool.or_eq_true, decide_eq_true_eq, Needs]
  constructor
  · intro h y hy
    exact (h (x, y) hy).resolve_left fun hne => hne rfl
  · rintro h ⟨a, b⟩ hab
    by_cases hax : a = x
    · exact .inr (h b (hax ▸ hab))
    · exact .inl hax

/-- When nothing is ready, all that is left waits for something. -/
lemma exists_needs_of_find_eq_none {edges : List (α × α)} {done left : List α}
    (h : left.find? (isReady edges done) = none) (hx : x ∈ left) :
    ∃ y, Needs edges x y ∧ y ∉ done := by
  have hnot := List.find?_eq_none.mp h x hx
  rw [isReady_iff] at hnot
  push Not at hnot
  exact hnot

/-- Take the first of `left` that is ready, again and again; what is left when nothing is ready
follows as it stands. The counter is at least the length of `left`. -/
def greedy (edges : List (α × α)) : ℕ → List α → List α → List α
  | 0, _, left => left
  | n + 1, done, left =>
    match left.find? (isReady edges done) with
    | none => left
    | some x => x :: greedy edges n (done ++ [x]) (left.erase x)

variable {edges : List (α × α)}

lemma greedy_perm (edges : List (α × α)) (n : ℕ) (done left : List α) :
    (greedy edges n done left).Perm left := by
  induction n generalizing done left with
  | zero => exact .refl _
  | succ n ih =>
    rw [greedy]
    cases h : left.find? (isReady edges done) with
    | none => exact .refl _
    | some x =>
      have hx := List.mem_of_find?_eq_some h
      exact ((ih _ _).cons x).trans (List.perm_cons_erase hx).symm

lemma greedy_readyFirst (hedges : ∀ x y, Needs edges x y → y ∈ univ) {n : ℕ}
    {done left : List α} (huniv : ∀ x ∈ univ, x ∈ done ∨ x ∈ left) (hn : left.length ≤ n)
    (h : ReadyFirst (Needs edges) univ done) :
    ReadyFirst (Needs edges) univ (done ++ greedy edges n done left) := by
  induction n generalizing done left with
  | zero =>
    rw [List.length_eq_zero_iff.mp (Nat.le_zero.mp hn)]
    simpa [greedy] using h
  | succ n ih =>
    rw [greedy]
    cases hfind : left.find? (isReady edges done) with
    | none =>
      refine h.append (fun x hx hdone => ?_) left
      obtain ⟨y, hxy, hy⟩ := exists_needs_of_find_eq_none hfind ((huniv x hx).resolve_left hdone)
      exact ⟨y, hedges x y hxy, hxy, hy⟩
    | some x =>
      have hx := List.mem_of_find?_eq_some hfind
      have hready := isReady_iff.mp (List.find?_some hfind)
      rw [List.append_cons]
      refine ih (fun y hy => ?_) ?_ (h.concat (.inl hready))
      · by_cases heq : y = x
        · exact .inl (by simp [heq])
        · apply (huniv y hy).imp (fun hd => List.mem_append_left _ hd)
          intro hl
          exact (List.mem_erase_of_ne heq).mpr hl
      · rw [List.length_erase_of_mem hx]
        omega

/-- The greedy order of all of `univ`. -/
def greedyOrder (edges : List (α × α)) (univ : List α) : List α :=
  greedy edges univ.length [] univ

lemma greedyOrder_perm (edges : List (α × α)) (univ : List α) :
    (greedyOrder edges univ).Perm univ :=
  greedy_perm edges univ.length [] univ

/-- In the greedy order what reaches no cycle comes after all it depends on. -/
theorem greedyOrder_before (hedges : ∀ x y, Needs edges x y → y ∈ univ) (hnodup : univ.Nodup)
    (hx : x ∈ univ) (hacyclic : AcyclicFrom (Needs edges) x) {y : α}
    (hxy : Needs edges x y) : Before (greedyOrder edges univ) y x := by
  have hready : ReadyFirst (Needs edges) univ (greedyOrder edges univ) :=
    greedy_readyFirst hedges (fun _ h => .inr h) le_rfl .nil
  exact hready.before ((greedyOrder_perm edges univ).nodup_iff.mpr hnodup) hx
    (hacyclic.acc hedges) hxy

/-- The greedy order starts with what reaches no cycle; the rest follows as it stood in `left`. -/
lemma exists_greedy_eq {n : ℕ} {done left : List α} (hn : left.length ≤ n)
    (hclosed : ∀ x ∈ left, ∀ y, Needs edges x y → y ∈ done ∨ y ∈ left)
    (hnodup : (done ++ left).Nodup) (hdone : ∀ x ∈ done, Acc (fun b a => Needs edges a b) x) :
    ∃ early late, greedy edges n done left = early ++ late ∧ late.Sublist left ∧
      (∀ x ∈ early, Acc (fun b a => Needs edges a b) x) ∧
      ∀ x ∈ late, ¬ Acc (fun b a => Needs edges a b) x := by
  induction n generalizing done left with
  | zero =>
    rw [List.length_eq_zero_iff.mp (Nat.le_zero.mp hn)]
    exact ⟨[], [], rfl, .slnil, by simp, by simp⟩
  | succ n ih =>
    cases hfind : left.find? (isReady edges done) with
    | none =>
      have hstuck : Stuck (Needs edges) left done := by
        intro x hx _
        obtain ⟨y, hxy, hy⟩ := exists_needs_of_find_eq_none hfind hx
        exact ⟨y, (hclosed x hx y hxy).resolve_left hy, hxy, hy⟩
      refine ⟨[], left, by rw [greedy, hfind]; rfl, .refl left, by simp, fun x hx => ?_⟩
      exact hstuck.not_acc hx fun hd => (List.nodup_append.mp hnodup).2.2 x hd x hx rfl
    | some x =>
      have hx := List.mem_of_find?_eq_some hfind
      have hready := isReady_iff.mp (List.find?_some hfind)
      have hacc : Acc (fun b a => Needs edges a b) x := .intro x fun y hy => hdone y (hready y hy)
      have hlen : (left.erase x).length ≤ n := by
        rw [List.length_erase_of_mem hx]
        omega
      have hclosed' : ∀ y ∈ left.erase x, ∀ z, Needs edges y z →
          z ∈ done ++ [x] ∨ z ∈ left.erase x := by
        intro y hy z hyz
        by_cases hzx : z = x
        · exact .inl (by simp [hzx])
        · apply (hclosed y (List.mem_of_mem_erase hy) z hyz).imp (List.mem_append_left _)
          exact (List.mem_erase_of_ne hzx).mpr
      have hnodup' : ((done ++ [x]) ++ left.erase x).Nodup := by
        rw [List.append_assoc, List.singleton_append]
        exact ((List.perm_cons_erase hx).append_left done).nodup_iff.mp hnodup
      have hdone' : ∀ y ∈ done ++ [x], Acc (fun b a => Needs edges a b) y := by
        rw [List.forall_mem_append, List.forall_mem_singleton]
        exact ⟨hdone, hacc⟩
      obtain ⟨early, late, hsplit, hsub, hearly, hlate⟩ := ih hlen hclosed' hnodup' hdone'
      refine ⟨x :: early, late, ?_, hsub.trans List.erase_sublist, ?_, hlate⟩
      · rw [greedy, hfind]
        exact congrArg (x :: ·) hsplit
      · exact List.forall_mem_cons.mpr ⟨hacc, hearly⟩

end Greedy

/-! ### The least order -/

section Least

variable [LinearOrder α] {edges : List (α × α)}

/-- In a sorted list what is found first is the least of its kind. -/
lemma le_of_find?_eq_some {p : α → Bool} {l : List α} (hl : l.Pairwise (· < ·)) {x z : α}
    (hx : l.find? p = some x) (hz : z ∈ l) (hp : p z = true) : x ≤ z := by
  obtain ⟨-, l₁, l₂, rfl, hl₁⟩ := List.find?_eq_some_iff_append.mp hx
  rcases List.mem_append.mp hz with hz | hz
  · exact absurd hp (by simpa using hl₁ z hz)
  · rcases List.mem_cons.mp hz with rfl | hz
    · exact le_rfl
    · have hsorted := (List.pairwise_append.mp hl).2.1
      exact (List.rel_of_pairwise_cons hsorted hz).le

/-- When `left` is sorted the greedy order is the least, place by place, of the orders of `left`
that respect the dependencies. -/
lemma greedy_le {n : ℕ} {done left order : List α} (hn : left.length ≤ n)
    (hsorted : left.Pairwise (· < ·)) (hperm : order.Perm left)
    (horder : ∀ l₁ x l₂, order = l₁ ++ x :: l₂ → ∀ y, Needs edges x y → y ∈ done ∨ y ∈ l₁) :
    greedy edges n done left = order ∨ List.Lex (· < ·) (greedy edges n done left) order := by
  induction n generalizing done left order with
  | zero =>
    have hleft := List.length_eq_zero_iff.mp (Nat.le_zero.mp hn)
    rw [hleft] at hperm
    rw [hleft, greedy, hperm.eq_nil]
    exact .inl rfl
  | succ n ih =>
    cases order with
    | nil =>
      rw [hperm.nil_eq.symm, greedy]
      exact .inl rfl
    | cons z rest =>
      have hz : z ∈ left := hperm.subset List.mem_cons_self
      have hready : isReady edges done z = true := by
        rw [isReady_iff]
        intro y hy
        exact (horder [] z rest rfl y hy).resolve_right List.not_mem_nil
      cases hfind : left.find? (isReady edges done) with
      | none => exact absurd hready (List.find?_eq_none.mp hfind z hz)
      | some x =>
        have hx := List.mem_of_find?_eq_some hfind
        rw [greedy, hfind]
        rcases (le_of_find?_eq_some hsorted hfind hz hready).lt_or_eq with hlt | rfl
        · exact .inr (.rel hlt)
        · have hlen : (left.erase x).length ≤ n := by
            rw [List.length_erase_of_mem hx]
            omega
          have hrest : rest.Perm (left.erase x) := (List.cons_perm_iff_perm_erase.mp hperm).2
          have horder' : ∀ l₁ y l₂, rest = l₁ ++ y :: l₂ →
              ∀ w, Needs edges y w → w ∈ done ++ [x] ∨ w ∈ l₁ := by
            intro l₁ y l₂ heq w hyw
            have := horder (x :: l₁) y l₂ (by rw [heq]; rfl) w hyw
            simpa [or_assoc] using this
          rcases ih hlen (hsorted.erase x) hrest horder' with heq | hlex
          · exact .inl (congrArg (x :: ·) heq)
          · exact .inr (.cons hlex)

end Least

end Core
