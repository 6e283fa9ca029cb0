import Mathlib.Data.Finset.Card
import Mathlib.Data.Set.Function
import Mathlib.Tactic

/-!
# First fit

Elements come one after the other, each with a sequence of candidate keys, and each gets the first
of its candidates that nobody has yet.
-/

namespace Core

variable {α κ : Type*}

/-! ### One search -/

section Search

variable {key : ℕ → κ} {used : Finset κ} {m n : ℕ}

/-- The search comes to candidate `n`: all candidates before it are taken. -/
def Reached (key : ℕ → κ) (used : Finset κ) (n : ℕ) : Prop := ∀ m < n, key m ∈ used

/-- Candidate `n` is the first free one. -/
def FirstFree (key : ℕ → κ) (used : Finset κ) (n : ℕ) : Prop :=
  Reached key used n ∧ key n ∉ used

lemma Reached.mono (h : Reached key used n) (hmn : m ≤ n) : Reached key used m :=
  fun k hk => h k (hk.trans_le hmn)

lemma FirstFree.unique (hm : FirstFree key used m) (hn : FirstFree key used n) : m = n := by
  rcases lt_trichotomy m n with hlt | heq | hgt
  · exact absurd (hn.1 m hlt) hm.2
  · exact heq
  · exact absurd (hm.1 n hgt) hn.2

/-- When the search comes to no key twice, it ends. -/
theorem exists_firstFree (hinj : Set.InjOn key {n | n ≤ used.card ∧ Reached key used n}) :
    ∃ n ≤ used.card, FirstFree key used n := by
  classical
  have hstop : ¬ Reached key used (used.card + 1) := by
    intro hreached
    have hsub : (Finset.range (used.card + 1)).image key ⊆ used := by
      intro k hk
      obtain ⟨m, hm, rfl⟩ := Finset.mem_image.mp hk
      exact hreached m (Finset.mem_range.mp hm)
    have hcard : ((Finset.range (used.card + 1)).image key).card = used.card + 1 := by
      rw [Finset.card_image_of_injOn, Finset.card_range]
      refine hinj.mono fun m hm => ?_
      have hlt := Finset.mem_range.mp hm
      exact ⟨Nat.lt_succ_iff.mp hlt, hreached.mono hlt.le⟩
    have hle := Finset.card_le_card hsub
    rw [hcard] at hle
    exact absurd hle (Nat.not_succ_le_self _)
  rw [Reached] at hstop
  push Not at hstop
  obtain ⟨hlt, hfree⟩ := Nat.find_spec hstop
  refine ⟨Nat.find hstop, Nat.lt_succ_iff.mp hlt, ?_, hfree⟩
  intro m hm
  by_contra hmfree
  exact Nat.find_min hstop hm ⟨hm.trans hlt, hmfree⟩

lemma Reached.of_succ (hfirst : key 0 ∈ used) (h : Reached (fun n => key (n + 1)) used n) :
    Reached key used (n + 1) := by
  intro m hm
  cases m with
  | zero => exact hfirst
  | succ m => exact h m (Nat.lt_of_succ_lt_succ hm)

/-- When only the first key may come again, one turn more is enough. -/
theorem exists_firstFree_succ
    (hinj : Set.InjOn (fun n => key (n + 1)) {n | n ≤ used.card ∧ Reached key used (n + 1)}) :
    ∃ n ≤ used.card + 1, FirstFree key used n := by
  by_cases hfirst : key 0 ∈ used
  · have hsucc : Set.InjOn (fun n => key (n + 1))
        {n | n ≤ used.card ∧ Reached (fun n => key (n + 1)) used n} := by
      refine hinj.mono ?_
      rintro n ⟨hn, hreached⟩
      exact ⟨hn, hreached.of_succ hfirst⟩
    obtain ⟨n, hn, hreached, hfree⟩ := exists_firstFree hsucc
    exact ⟨n + 1, Nat.succ_le_succ hn, hreached.of_succ hfirst, hfree⟩
  · exact ⟨0, Nat.zero_le _, fun m hm => absurd hm m.not_lt_zero, hfirst⟩

end Search

/-! ### A sequence of searches -/

section Sequence

variable [DecidableEq κ] {key : α → ℕ → κ} {used : Finset κ} {given : List (α × ℕ)}

/-- The keys that are taken after `given`. -/
def taken (key : α → ℕ → κ) (used : Finset κ) (given : List (α × ℕ)) : Finset κ :=
  used ∪ (given.map fun p => key p.1 p.2).toFinset

/-- Each element of `given` stands with the number of the candidate that it gets. -/
inductive FirstFit (key : α → ℕ → κ) : Finset κ → List (α × ℕ) → Prop
  | nil (used : Finset κ) : FirstFit key used []
  | cons {used : Finset κ} {a : α} {n : ℕ} {given : List (α × ℕ)} :
      FirstFree (key a) used n → FirstFit key (insert (key a n) used) given →
      FirstFit key used ((a, n) :: given)

lemma mem_taken {k : κ} : k ∈ taken key used given ↔ k ∈ used ∨ ∃ p ∈ given, key p.1 p.2 = k := by
  simp [taken]

lemma taken_cons (a : α) (n : ℕ) :
    taken key used ((a, n) :: given) = taken key (insert (key a n) used) given := by
  ext k
  rw [mem_taken, mem_taken, Finset.mem_insert, List.exists_mem_cons_iff, eq_comm, or_assoc,
    or_left_comm]

/-- Nobody gets a key that is taken, nor one that another has. -/
lemma FirstFit.nodup (h : FirstFit key used given) :
    (given.map fun p => key p.1 p.2).Nodup ∧ ∀ p ∈ given, key p.1 p.2 ∉ used := by
  induction h with
  | nil used => exact ⟨List.nodup_nil, fun p hp => absurd hp List.not_mem_nil⟩
  | cons hfree hrest ih =>
    obtain ⟨hnodup, hnot⟩ := ih
    constructor
    · rw [List.map_cons, List.nodup_cons]
      refine ⟨?_, hnodup⟩
      intro hmem
      obtain ⟨p, hp, heq⟩ := List.mem_map.mp hmem
      exact hnot p hp (heq ▸ Finset.mem_insert_self _ _)
    · rw [List.forall_mem_cons]
      refine ⟨hfree.2, fun p hp hused => ?_⟩
      exact hnot p hp (Finset.mem_insert_of_mem hused)

lemma FirstFit.eq_of_key_eq (h : FirstFit key used given) {p q : α × ℕ} (hp : p ∈ given)
    (hq : q ∈ given) (heq : key p.1 p.2 = key q.1 q.2) : p = q :=
  List.inj_on_of_nodup_map h.nodup.1 hp hq heq

lemma firstFit_append_iff {given' : List (α × ℕ)} :
    FirstFit key used (given ++ given') ↔
      FirstFit key used given ∧ FirstFit key (taken key used given) given' := by
  induction given generalizing used with
  | nil =>
    have htaken : taken key used [] = used := by simp [taken]
    rw [List.nil_append, htaken]
    exact ⟨fun h => ⟨.nil used, h⟩, fun h => h.2⟩
  | cons p given ih =>
    obtain ⟨a, n⟩ := p
    rw [List.cons_append, taken_cons]
    constructor
    · rintro (_ | ⟨hfree, hrest⟩)
      obtain ⟨hgiven, hgiven'⟩ := ih.mp hrest
      exact ⟨.cons hfree hgiven, hgiven'⟩
    · rintro ⟨_ | ⟨hfree, hgiven⟩, hgiven'⟩
      exact .cons hfree (ih.mpr ⟨hgiven, hgiven'⟩)

/-- Each element got its first free candidate when its turn came. -/
lemma FirstFit.firstFree {l l' : List (α × ℕ)} {a : α} {n : ℕ}
    (h : FirstFit key used (l ++ (a, n) :: l')) : FirstFree (key a) (taken key used l) n := by
  obtain ⟨-, _ | ⟨hfree, -⟩⟩ := firstFit_append_iff.mp h
  exact hfree

/-- The numbers are determined by the elements. -/
lemma FirstFit.unique {given' : List (α × ℕ)} (h : FirstFit key used given)
    (h' : FirstFit key used given') (heq : given.map Prod.fst = given'.map Prod.fst) :
    given = given' := by
  induction h generalizing given' with
  | nil used => exact (List.map_eq_nil_iff.mp heq.symm).symm
  | cons hfree hrest ih =>
    cases h' with
    | nil => simp at heq
    | cons hfree' hrest' =>
      obtain ⟨rfl, hmap⟩ := List.cons.inj heq
      obtain rfl := hfree.unique hfree'
      rw [ih hrest' hmap]

lemma card_taken_le (key : α → ℕ → κ) (used : Finset κ) (given : List (α × ℕ)) :
    (taken key used given).card ≤ used.card + given.length := by
  refine (Finset.card_union_le _ _).trans (Nat.add_le_add_left ?_ _)
  refine (List.toFinset_card_le _).trans ?_
  rw [List.length_map]

/-- When no search comes to a key twice in as many turns as there are keys taken, everybody gets a
key. -/
theorem exists_firstFit {l : List α}
    (hinj : ∀ given a l', FirstFit key used given →
      (∀ p ∈ given, p.2 < used.card + given.length) → l = given.map Prod.fst ++ a :: l' →
      Set.InjOn (key a) {n | n ≤ used.card + given.length ∧
        Reached (key a) (taken key used given) n}) :
    ∃ given, FirstFit key used given ∧ given.map Prod.fst = l ∧
      ∀ p ∈ given, p.2 < used.card + given.length := by
  induction l using List.reverseRecOn with
  | nil => exact ⟨[], .nil used, rfl, fun p hp => absurd hp List.not_mem_nil⟩
  | append_singleton l a ih =>
    obtain ⟨given, hgiven, rfl, hbound⟩ := ih fun given b l' hgiven hbound hl =>
      hinj given b (l' ++ [a]) hgiven hbound (by rw [hl, List.append_assoc, List.cons_append])
    have hcard := card_taken_le key used given
    have hkeys : Set.InjOn (key a) {n | n ≤ (taken key used given).card ∧
        Reached (key a) (taken key used given) n} := by
      refine (hinj given a [] hgiven hbound rfl).mono ?_
      rintro n ⟨hn, hreached⟩
      exact ⟨hn.trans hcard, hreached⟩
    obtain ⟨n, hn, hfree⟩ := exists_firstFree hkeys
    refine ⟨given ++ [(a, n)], firstFit_append_iff.mpr ⟨hgiven, .cons hfree (.nil _)⟩,
      List.map_append, fun p hp => ?_⟩
    rw [List.length_append, List.length_singleton]
    rcases List.mem_append.mp hp with hp | hp
    · have hlt := hbound p hp
      omega
    · rw [List.mem_singleton.mp hp]
      dsimp only
      omega

end Sequence

end Core
