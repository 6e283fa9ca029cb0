import TdExport.Db.Postgres.SchemaDdl.Kahn

/-!
# The order of the dependencies

What `order_by_dependency` promises over every graph: each statement comes once, after what it
depends on; without cycles the order of the keys is the least that respects the dependencies; with
cycles what reaches one comes last.
-/

namespace TdExport.Postgres

open Core Relation

variable {K S : Type} [LinearOrder K]

/-- A dependency that counts: between two different nodes. -/
def InnerDep (nodes : List (K × S)) (deps : List (K × K)) (t d : K) : Prop :=
  (t, d) ∈ deps ∧ t ≠ d ∧ t ∈ nodes.map Prod.fst ∧ d ∈ nodes.map Prod.fst

/-- In `order` every key comes after all it depends on. -/
def Respects (dep : K → K → Prop) (order : List K) : Prop :=
  ∀ t d, dep t d → Before order d t

variable {nodes : List (K × S)} {deps : List (K × K)}

lemma needs_innerEdges (hnodes : (nodes.map Prod.fst).Nodup) :
    Needs (innerEdges (SortedMap.ofList nodes) deps) = InnerDep nodes deps := by
  funext t d
  apply propext
  rw [Needs, mem_innerEdges, mem_keys_ofList hnodes, mem_keys_ofList hnodes, InnerDep]

lemma InnerDep.mem_keys (hnodes : (nodes.map Prod.fst).Nodup) {t d : K}
    (h : InnerDep nodes deps t d) : d ∈ (SortedMap.ofList nodes).keys :=
  (mem_keys_ofList hnodes).mpr h.2.2.2

/-- A node that reaches no cycle is emitted after each node it depends on. -/
lemma emissionOrder_before_of_innerDep (hnodes : (nodes.map Prod.fst).Nodup) {t d : K}
    (hacyclic : AcyclicFrom (InnerDep nodes deps) t) (htd : InnerDep nodes deps t d) :
    Before (emissionOrder nodes deps) d t := by
  rw [← needs_innerEdges hnodes] at hacyclic htd
  refine greedyOrder_before (fun x y h => ?_) (SortedMap.keys_nodup _) ?_ hacyclic htd
  · rw [needs_innerEdges hnodes] at h
    exact h.mem_keys hnodes
  · exact (mem_innerEdges.mp htd).2.2.1

/-- Of the orders that respect the dependencies the emission order is the least. -/
lemma emissionOrder_le (hnodes : (nodes.map Prod.fst).Nodup) {order : List K}
    (hperm : order.Perm (nodes.map Prod.fst)) (horder : Respects (InnerDep nodes deps) order) :
    emissionOrder nodes deps = order ∨ List.Lex (· < ·) (emissionOrder nodes deps) order := by
  apply greedy_le le_rfl (SortedMap.keys_sorted _)
  · exact hperm.trans ((SortedMap.entries_ofList_perm hnodes).map Prod.fst).symm
  · intro l₁ x l₂ heq y hxy
    rw [needs_innerEdges hnodes] at hxy
    exact .inr (horder x y hxy l₁ l₂ heq)

/-- What reaches a cycle comes last, in the order of the keys. -/
lemma exists_emissionOrder_eq (hnodes : (nodes.map Prod.fst).Nodup) :
    ∃ early late, emissionOrder nodes deps = early ++ late ∧ late.Pairwise (· < ·) ∧
      (∀ k ∈ early, AcyclicFrom (InnerDep nodes deps) k) ∧
      ∀ k ∈ late, ¬ AcyclicFrom (InnerDep nodes deps) k := by
  have hclosed : ∀ x y, Needs (innerEdges (SortedMap.ofList nodes) deps) x y →
      y ∈ (SortedMap.ofList nodes).keys := by
    intro x y hxy
    rw [needs_innerEdges hnodes] at hxy
    exact hxy.mem_keys hnodes
  obtain ⟨early, late, hsplit, hsub, hearly, hlate⟩ :=
    @exists_greedy_eq _ _ _ _ [] _ le_rfl (fun x _ y hxy => .inr (hclosed x y hxy))
      (SortedMap.keys_nodup (SortedMap.ofList nodes)) (List.forall_mem_nil _)
  rw [← needs_innerEdges hnodes]
  refine ⟨early, late, hsplit, (SortedMap.keys_sorted _).sublist hsub, ?_, ?_⟩
  · intro k hk
    exact .of_acc (hearly k hk)
  · intro k hk hacyclic
    exact hlate k hk (hacyclic.acc hclosed)

/-- `order_by_dependency` ends for every graph and emits each statement once, `labelled` with its
key: after what it depends on unless it reaches a cycle; in the least order that respects the
dependencies when there is no cycle; with what reaches a cycle last, in the order of the keys. -/
theorem orderByDependency_topological (nodes : List (K × S)) (deps : List (K × K))
    (hnodes : (nodes.map Prod.fst).Nodup) :
    ∃ labelled, orderByDependency (nodes.map fun n => (n.1, n)) deps = some labelled ∧
      orderByDependency nodes deps = some (labelled.map Prod.snd) ∧ labelled.Perm nodes ∧
      (∀ t d, InnerDep nodes deps t d → AcyclicFrom (InnerDep nodes deps) t →
        Before (labelled.map Prod.fst) d t) ∧
      ((∀ k, ¬ TransGen (InnerDep nodes deps) k k) →
        Respects (InnerDep nodes deps) (labelled.map Prod.fst) ∧
        ∀ order, order.Perm (nodes.map Prod.fst) → Respects (InnerDep nodes deps) order →
          labelled.map Prod.fst = order ∨ List.Lex (· < ·) (labelled.map Prod.fst) order) ∧
      ∃ early late, labelled.map Prod.fst = early ++ late ∧ late.Pairwise (· < ·) ∧
        (∀ k ∈ early, AcyclicFrom (InnerDep nodes deps) k) ∧
        ∀ k ∈ late, ¬ AcyclicFrom (InnerDep nodes deps) k := by
  obtain ⟨labelled, hlabelled, hemitted, hkeys, hperm⟩ := orderByDependency_labelled deps hnodes
  refine ⟨labelled, hlabelled, hemitted, hperm, ?_, ?_, ?_⟩
  · intro t d htd hacyclic
    rw [hkeys]
    exact emissionOrder_before_of_innerDep hnodes hacyclic htd
  · intro hacyclic
    rw [hkeys]
    constructor
    · intro t d htd
      exact emissionOrder_before_of_innerDep hnodes (fun k _ => hacyclic k) htd
    · intro order horder hrespects
      exact emissionOrder_le hnodes horder hrespects
  · rw [hkeys]
    exact exists_emissionOrder_eq hnodes

/-! ### A node that waits for a later one -/

/-- The statements `a`, `b` and `c`. -/
def threeNodes : List (ℕ × Str) := [(1, "a"), (2, "b"), (3, "c")]

/-- `a` needs `c`, twice; `c` needs itself and a node that is not there. -/
def threeDeps : List (ℕ × ℕ) := [(1, 3), (1, 3), (3, 3), (3, 9)]

theorem orderByDependency_topological_three :
    (threeNodes.map Prod.fst).Nodup ∧
      ∃ labelled : List (ℕ × Str),
        orderByDependency threeNodes threeDeps = some (labelled.map Prod.snd) ∧
        labelled.Perm threeNodes ∧
        ∀ t d, InnerDep threeNodes threeDeps t d →
          AcyclicFrom (InnerDep threeNodes threeDeps) t → Before (labelled.map Prod.fst) d t := by
  refine ⟨by decide, ?_⟩
  obtain ⟨labelled, -, hemitted, hperm, hbefore, -⟩ :=
    orderByDependency_topological threeNodes threeDeps (by decide)
  exact ⟨labelled, hemitted, hperm, hbefore⟩

example : orderByDependency threeNodes threeDeps = some (["b", "c", "a"] : List Str) := by decide

end TdExport.Postgres
