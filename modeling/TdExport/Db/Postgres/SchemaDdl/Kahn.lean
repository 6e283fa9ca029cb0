import TdExport.Core.Order
import TdExport.Db.Postgres.SchemaDdl.Basic

/-!
# Kahn's algorithm refines the greedy order

The loop of `order_by_dependency` keeps counters of the dependencies that are not met. It emits the
statements in the greedy order of their keys: the counters only find the next ready key faster.
-/

namespace TdExport.Postgres

open Core

variable {K S : Type} [LinearOrder K]

/-- The dependencies that count: between different keys of `statements`. -/
def innerEdges (statements : SortedMap K S) (deps : List (K × K)) : List (K × K) :=
  deps.filter fun e => e.1 ≠ e.2 ∧ statements.contains e.1 ∧ statements.contains e.2

lemma mem_innerEdges {statements : SortedMap K S} {deps : List (K × K)} {t d : K} :
    (t, d) ∈ innerEdges statements deps ↔
      (t, d) ∈ deps ∧ t ≠ d ∧ t ∈ statements.keys ∧ d ∈ statements.keys := by
  simp [innerEdges]

/-! ### Counters -/

/-- The number of dependencies of `u` that `done` does not meet. -/
def missing (edges : List (K × K)) (done : List K) (u : K) : ℕ :=
  edges.countP fun e => e.1 = u ∧ e.2 ∉ done

variable {edges : List (K × K)} {done : List K} {t u : K}

lemma missing_eq_zero_iff : missing edges done u = 0 ↔ isReady edges done u = true := by
  rw [missing, List.countP_eq_zero, isReady_iff]
  constructor
  · intro h y hy
    by_contra hnot
    exact h (u, y) hy (by simpa using hnot)
  · rintro h ⟨a, b⟩ hab
    simp only [decide_eq_true_eq, not_and, not_not]
    rintro rfl
    exact h b hab

/-- The keys that wait for `t`, once for each dependency. -/
def waiters (edges : List (K × K)) (t : K) : List K :=
  (edges.filter fun e => e.2 = t).map Prod.fst

lemma mem_waiters : u ∈ waiters edges t ↔ Needs edges u t := by
  simp [waiters, Needs]

lemma missing_concat (edges : List (K × K)) (e : K × K) (done : List K) (u : K) :
    missing (edges ++ [e]) done u =
      missing edges done u + if e.1 = u ∧ e.2 ∉ done then 1 else 0 := by
  simp only [missing, List.countP_append, List.countP_singleton, decide_eq_true_eq]

lemma count_waiters_concat (edges : List (K × K)) (e : K × K) (t u : K) :
    (waiters (edges ++ [e]) t).count u =
      (waiters edges t).count u + if e.1 = u ∧ e.2 = t then 1 else 0 := by
  rw [waiters, List.filter_append, List.map_append, List.count_append, ← waiters]
  by_cases h : e.2 = t
  · simp [h, List.count_singleton]
  · simp [h]

/-- Emitting `t` meets the dependencies of those that wait for it. -/
lemma missing_append (edges : List (K × K)) (ht : t ∉ done) (u : K) :
    missing edges done u = missing edges (done ++ [t]) u + (waiters edges t).count u := by
  induction edges using List.reverseRecOn with
  | nil => rfl
  | append_singleton edges e ih =>
    rw [missing_concat, missing_concat, count_waiters_concat, ih]
    by_cases hu : e.1 = u
    · by_cases he : e.2 = t
      · simp only [hu, he, ht, List.mem_append, List.mem_singleton, not_true, or_true,
          not_false_eq_true, and_true, and_false, if_true, if_false]
        omega
      · simp only [hu, he, List.mem_append, List.mem_singleton, or_false, and_false, if_false]
        omega
    · simp only [hu, false_and, if_false]
      omega

/-- Emitting `t` makes ready what waits for nothing else. -/
lemma isReady_concat (ht : t ∉ done) :
    isReady edges (done ++ [t]) u = true ↔ missing edges done u = (waiters edges t).count u := by
  rw [← missing_eq_zero_iff, missing_append edges ht u]
  omega

lemma isReady_concat_of_isReady (h : isReady edges done u = true) :
    isReady edges (done ++ [t]) u = true := by
  rw [isReady_iff] at h ⊢
  exact fun y hy => List.mem_append_left _ (h y hy)

/-- The counter of a key before anything is emitted. -/
def startCount (edges : List (K × K)) (u : K) : Option ℕ :=
  if missing edges [] u = 0 then none else some (missing edges [] u)

/-- The graph as the loop over the dependencies leaves it. -/
lemma depGraph_eq (statements : SortedMap K S) (deps : List (K × K)) :
    depGraph statements deps =
      ⟨waiters (innerEdges statements deps), startCount (innerEdges statements deps)⟩ := by
  induction deps using List.reverseRecOn with
  | nil => rfl
  | append_singleton deps e ih =>
    rw [depGraph, List.foldl_append, ← depGraph, ih, List.foldl_cons, List.foldl_nil]
    generalize hedges : innerEdges statements deps = edges
    by_cases h : e.1 ≠ e.2 ∧ statements.contains e.1 ∧ statements.contains e.2
    · have hnew : innerEdges statements (deps ++ [e]) = edges ++ [e] := by
        rw [innerEdges, List.filter_append, List.filter_cons_of_pos (by simpa using h), ← hedges]
        rfl
      rw [if_pos h, hnew, DepGraph.add]
      congr 1
      · funext d
        by_cases hd : d = e.2
        · simp [hd, waiters]
        · simp [Function.update_of_ne hd, waiters, Ne.symm hd]
      · funext u
        rw [startCount, missing_concat]
        by_cases hu : u = e.1
        · subst hu
          by_cases hz : missing edges [] e.1 = 0 <;> simp [startCount, hz]
        · simp [Function.update_of_ne hu, startCount, Ne.symm hu]
    · have hnew : innerEdges statements (deps ++ [e]) = edges := by
        rw [innerEdges, List.filter_append, List.filter_cons_of_neg (by simpa using h), ← hedges]
        simp [innerEdges]
      rw [if_neg h, hnew]

section Release

variable {us : List K} {pending : K → Option ℕ} {ready : Finset K} {n : ℕ}

lemma release_of_some (h : pending u = some n) :
    release (pending, ready) u =
      (Function.update pending u (some (n - 1)), if n - 1 = 0 then insert u ready else ready) := by
  simp [release, h]

/-- The key that is released first becomes ready now or when it is released last. -/
lemma mem_release_self (hcount : us.count u + 1 ≤ n) :
    ((u ∈ if n - 1 = 0 then insert u ready else ready) ∨ u ∈ us ∧ n - 1 = us.count u) ↔
      u ∈ ready ∨ n = us.count u + 1 := by
  by_cases hzero : n - 1 = 0
  · simp only [hzero, if_true, Finset.mem_insert_self, true_or, true_iff]
    right
    omega
  · have hmem : n - 1 = us.count u → u ∈ us := fun h => List.count_pos_iff.mp (by omega)
    have hlast : u ∈ us ∧ n - 1 = us.count u ↔ n = us.count u + 1 := by
      constructor
      · rintro ⟨-, h⟩
        omega
      · intro h
        exact ⟨hmem (by omega), by omega⟩
    rw [if_neg hzero, hlast]

/-- Releasing the keys `us`: each counter goes down by the occurrences of its key, and a key whose
counter reaches zero becomes ready. -/
lemma foldl_release (hpending : ∀ u ∈ us, ∃ n, pending u = some n ∧ us.count u ≤ n) :
    (∀ u, (us.foldl release (pending, ready)).1 u = (pending u).map (· - us.count u)) ∧
      ∀ u, u ∈ (us.foldl release (pending, ready)).2 ↔
        u ∈ ready ∨ u ∈ us ∧ pending u = some (us.count u) := by
  induction us generalizing pending ready with
  | nil => simp
  | cons v us ih =>
    obtain ⟨n, hn, hcount⟩ := hpending v List.mem_cons_self
    rw [List.count_cons_self] at hcount
    have hrest : ∀ u ∈ us, ∃ k, Function.update pending v (some (n - 1)) u = some k ∧
        us.count u ≤ k := by
      intro u hu
      by_cases huv : u = v
      · subst huv
        exact ⟨n - 1, by simp, by omega⟩
      · obtain ⟨k, hk, hle⟩ := hpending u (List.mem_cons_of_mem _ hu)
        rw [List.count_cons_of_ne (Ne.symm huv)] at hle
        exact ⟨k, by rwa [Function.update_of_ne huv], hle⟩
    obtain ⟨ih₁, ih₂⟩ := @ih _ (if n - 1 = 0 then insert v ready else ready) hrest
    rw [List.foldl_cons, release_of_some hn]
    constructor
    · intro u
      rw [ih₁]
      by_cases huv : u = v
      · subst huv
        simp only [Function.update_self, hn, Option.map_some, List.count_cons_self]
        congr 1
        omega
      · rw [Function.update_of_ne huv, List.count_cons_of_ne (Ne.symm huv)]
    · intro u
      rw [ih₂]
      by_cases huv : u = v
      · subst huv
        simp only [Function.update_self, hn, List.count_cons_self, List.mem_cons_self,
          true_and, Option.some_inj]
        exact mem_release_self hcount
      · rw [Function.update_of_ne huv, List.count_cons_of_ne (Ne.symm huv)]
        split_ifs <;> simp [huv]

end Release

/-! ### The loop -/

variable {m : SortedMap K S} {s : Kahn K S}

/-- The state of the loop after the keys `done` were emitted. -/
structure Emitting (m : SortedMap K S) (edges : List (K × K)) (s : Kahn K S) (done : List K) :
    Prop where
  entries_eq : s.statements.entries = m.entries.filter (·.1 ∉ done)
  pending_eq : ∀ u, s.pending u = (startCount edges u).map fun _ => missing edges done u
  mem_ready : ∀ u, u ∈ s.ready ↔ u ∈ m.keys ∧ u ∉ done ∧ isReady edges done u = true
  done_ready : ∀ u ∈ done, isReady edges done u = true

/-- The keys that are not emitted yet. -/
def leftKeys (m : SortedMap K S) (done : List K) : List K := m.keys.filter (· ∉ done)

lemma leftKeys_concat (m : SortedMap K S) (done : List K) (t : K) :
    leftKeys m (done ++ [t]) = (leftKeys m done).erase t := by
  rw [leftKeys, leftKeys, (m.keys_nodup.filter _).erase_eq_filter, List.filter_filter]
  congr 1
  funext k
  by_cases hk : k = t <;> simp [hk]

lemma Emitting.values_eq (h : Emitting m edges s done) :
    s.statements.values = (leftKeys m done).filterMap m.lookup := by
  rw [SortedMap.values, h.entries_eq]
  exact (SortedMap.filterMap_lookup (m := m) fun k => decide (k ∉ done)).symm

lemma Emitting.lookup_eq (h : Emitting m edges s done) (ht : t ∈ m.keys) (hdone : t ∉ done) :
    s.statements.lookup t = m.lookup t := by
  obtain ⟨v, he, hlookup⟩ := SortedMap.exists_lookup_of_mem_keys ht
  rw [hlookup]
  apply SortedMap.lookup_eq_some_of_mem
  rw [h.entries_eq]
  exact List.mem_filter.mpr ⟨he, by simpa using hdone⟩

/-- What waits for a key has a counter. -/
lemma Emitting.pending_of_mem_waiters (h : Emitting m edges s done) (hu : u ∈ waiters edges t) :
    s.pending u = some (missing edges done u) := by
  have hpos : missing edges [] u ≠ 0 := by
    rw [Ne, missing_eq_zero_iff, isReady_iff]
    intro hall
    exact absurd (hall t (mem_waiters.mp hu)) List.not_mem_nil
  rw [h.pending_eq, startCount, if_neg hpos, Option.map_some]

/-- Emitting the ready key `t` and releasing those that wait for it. -/
lemma Emitting.emit (h : Emitting m edges s done) (ht : t ∈ s.ready)
    (hedges : ∀ a b, Needs edges a b → a ∈ m.keys ∧ a ≠ b) :
    Emitting m edges
      ⟨s.statements.erase t, ((waiters edges t).foldl release (s.pending, s.ready.erase t)).1,
        ((waiters edges t).foldl release (s.pending, s.ready.erase t)).2,
        s.ordered ++ (s.statements.lookup t).toList⟩ (done ++ [t]) := by
  obtain ⟨-, htdone, htready⟩ := (h.mem_ready t).mp ht
  obtain ⟨hpending, hready⟩ := @foldl_release _ _ _ _ (s.ready.erase t) fun u hu =>
    ⟨_, h.pending_of_mem_waiters hu, by
      rw [missing_append edges htdone u]
      exact Nat.le_add_left _ _⟩
  refine ⟨?_, ?_, ?_, ?_⟩
  · simp only [SortedMap.erase, h.entries_eq, List.filter_filter]
    congr 1
    funext e
    simp [and_comm]
  · intro u
    simp only [hpending, h.pending_eq, Option.map_map]
    congr 1
    funext n
    simp [missing_append edges htdone u]
  · intro u
    rw [hready, Finset.mem_erase, h.mem_ready, isReady_concat htdone, List.mem_append,
      List.mem_singleton, not_or]
    constructor
    · rintro (⟨hne, hkey, hdone, hu⟩ | ⟨hu, hcount⟩)
      · exact ⟨hkey, ⟨hdone, hne⟩, (isReady_concat htdone).mp (isReady_concat_of_isReady hu)⟩
      · obtain ⟨hkey, hne⟩ := hedges u t (mem_waiters.mp hu)
        rw [h.pending_of_mem_waiters hu, Option.some_inj] at hcount
        refine ⟨hkey, ⟨fun hdone => ?_, hne⟩, hcount⟩
        -- what was emitted before waits for nothing
        have hzero := missing_eq_zero_iff.mpr (h.done_ready u hdone)
        have hpos := List.count_pos_iff.mpr hu
        omega
    · rintro ⟨hkey, ⟨hdone, hne⟩, hcount⟩
      by_cases hwait : u ∈ waiters edges t
      · right
        rw [h.pending_of_mem_waiters hwait, hcount]
        exact ⟨hwait, rfl⟩
      · left
        rw [List.count_eq_zero_of_not_mem hwait] at hcount
        exact ⟨hne, hkey, hdone, missing_eq_zero_iff.mp hcount⟩
  · intro u hu
    rcases List.mem_append.mp hu with hu | hu
    · exact isReady_concat_of_isReady (h.done_ready u hu)
    · rw [List.mem_singleton.mp hu]
      exact isReady_concat_of_isReady htready

/-- In a sorted list the least element with a property is the first. -/
lemma find?_eq_some_of_least {l : List K} {p : K → Bool} (hl : l.Pairwise (· < ·)) (ht : t ∈ l)
    (hp : p t = true) (hleast : ∀ k ∈ l, p k = true → t ≤ k) : l.find? p = some t := by
  induction l with
  | nil => cases ht
  | cons k l ih =>
    obtain ⟨hk, hl⟩ := List.pairwise_cons.mp hl
    rcases List.mem_cons.mp ht with rfl | ht
    · exact List.find?_cons_of_pos hp
    · have hnot : ¬ p k = true := fun hpk =>
        absurd (hleast k List.mem_cons_self hpk) (not_le.mpr (hk t ht))
      rw [List.find?_cons_of_neg hnot]
      exact ih hl ht fun k hk => hleast k (List.mem_cons_of_mem _ hk)

lemma Emitting.mem_ready_iff (h : Emitting m edges s done) :
    u ∈ s.ready ↔ u ∈ leftKeys m done ∧ isReady edges done u = true := by
  rw [h.mem_ready, leftKeys, List.mem_filter]
  simp [and_assoc]

/-- The loop ends, and it emits the statements in the greedy order of their keys. -/
lemma run_kahnStep (hedges : ∀ a b, Needs edges a b → a ∈ m.keys ∧ a ≠ b) {fuel : ℕ}
    (h : Emitting m edges s done) (hfuel : (leftKeys m done).length ≤ fuel) :
    ∃ r, Loop.run (kahnStep (waiters edges)) fuel s = some r ∧
      r.ordered ++ r.statements.values =
        s.ordered ++ (greedy edges fuel done (leftKeys m done)).filterMap m.lookup := by
  induction fuel generalizing s done with
  | zero =>
    have hleft := List.length_eq_zero_iff.mp (Nat.le_zero.mp hfuel)
    have hstop : kahnStep (waiters edges) s = none := by
      apply dif_neg
      rintro ⟨u, hu⟩
      rw [h.mem_ready_iff, hleft] at hu
      exact List.not_mem_nil hu.1
    exact ⟨s, Loop.run_of_stop hstop, by rw [h.values_eq, greedy]⟩
  | succ fuel ih =>
    by_cases hne : s.ready.Nonempty
    · have hmin := s.ready.min'_mem hne
      obtain ⟨hleft, hready⟩ := h.mem_ready_iff.mp hmin
      obtain ⟨hkey, hdone, -⟩ := (h.mem_ready _).mp hmin
      have hfind : (leftKeys m done).find? (isReady edges done) = some (s.ready.min' hne) := by
        refine find?_eq_some_of_least (m.keys_sorted.filter _) hleft hready fun k hk hpk => ?_
        exact s.ready.min'_le k (h.mem_ready_iff.mpr ⟨hk, hpk⟩)
      have hturn : kahnStep (waiters edges) s = some _ := dif_pos hne
      have hlen : (leftKeys m (done ++ [s.ready.min' hne])).length ≤ fuel := by
        rw [leftKeys_concat, List.length_erase_of_mem hleft]
        omega
      obtain ⟨r, hrun, hr⟩ := ih (h.emit hmin hedges) hlen
      refine ⟨r, (Loop.run_succ_of_step hturn).trans hrun, ?_⟩
      obtain ⟨v, -, hlookup⟩ := SortedMap.exists_lookup_of_mem_keys hkey
      rw [hr, greedy, hfind, h.lookup_eq hkey hdone, hlookup, leftKeys_concat]
      simp [hlookup]
    · have hstop : kahnStep (waiters edges) s = none := dif_neg hne
      have hfind : (leftKeys m done).find? (isReady edges done) = none := by
        rw [List.find?_eq_none]
        intro u hu hready
        exact hne ⟨u, h.mem_ready_iff.mpr ⟨hu, hready⟩⟩
      refine ⟨s, Loop.run_of_stop hstop, ?_⟩
      rw [h.values_eq, greedy, hfind]

/-- The keys of the nodes in the order in which their statements are emitted. -/
def emissionOrder (nodes : List (K × S)) (deps : List (K × K)) : List K :=
  let statements := SortedMap.ofList nodes
  greedyOrder (innerEdges statements deps) statements.keys

lemma Emitting.start (m : SortedMap K S) (deps : List (K × K)) :
    Emitting m (innerEdges m deps)
      ⟨m, (depGraph m deps).pending,
        (m.keys.filter fun t => ((depGraph m deps).pending t).isNone).toFinset, []⟩ [] where
  entries_eq := by simp
  pending_eq u := by
    simp only [depGraph_eq, startCount]
    split_ifs <;> rfl
  mem_ready u := by
    simp only [depGraph_eq, startCount, List.mem_toFinset, List.mem_filter, ← missing_eq_zero_iff]
    split_ifs with h <;> simp [h]
  done_ready u hu := absurd hu List.not_mem_nil

/-- `order_by_dependency` emits the statements of the nodes in the greedy order of the keys. -/
theorem orderByDependency_eq (nodes : List (K × S)) (deps : List (K × K))
    (hnodes : (nodes.map Prod.fst).Nodup) :
    orderByDependency nodes deps =
      some ((emissionOrder nodes deps).filterMap (SortedMap.ofList nodes).lookup) := by
  have hlen : (SortedMap.ofList nodes).keys.length = nodes.length := by
    rw [SortedMap.keys, List.length_map, (SortedMap.entries_ofList_perm hnodes).length_eq]
  have hleft : leftKeys (SortedMap.ofList nodes) [] = (SortedMap.ofList nodes).keys := by
    simp [leftKeys]
  have hedges : ∀ a b, Needs (innerEdges (SortedMap.ofList nodes) deps) a b →
      a ∈ (SortedMap.ofList nodes).keys ∧ a ≠ b := by
    intro a b hab
    obtain ⟨-, hne, ha, -⟩ := mem_innerEdges.mp hab
    exact ⟨ha, hne⟩
  have hfuel : (leftKeys (SortedMap.ofList nodes) []).length ≤ nodes.length := by rw [hleft, hlen]
  obtain ⟨r, hrun, hr⟩ :=
    run_kahnStep hedges (Emitting.start (SortedMap.ofList nodes) deps) hfuel
  rw [hleft] at hr
  simp only [orderByDependency, emissionOrder, greedyOrder, hlen]
  rw [← List.nil_append (List.filterMap _ _), ← hr]
  simp only [depGraph_eq] at hrun ⊢
  rw [hrun, Option.map_some]

/-! ### The emission order -/

variable {nodes : List (K × S)} {deps : List (K × K)}

lemma mem_keys_ofList (hnodes : (nodes.map Prod.fst).Nodup) {k : K} :
    k ∈ (SortedMap.ofList nodes).keys ↔ k ∈ nodes.map Prod.fst :=
  ((SortedMap.entries_ofList_perm hnodes).map Prod.fst).mem_iff

/-- A node that reaches no cycle is emitted after each node it depends on. -/
lemma emissionOrder_before (hnodes : (nodes.map Prod.fst).Nodup) {t d : K}
    (hacyclic : AcyclicFrom (Needs deps) t) (ht : t ∈ nodes.map Prod.fst)
    (hd : d ∈ nodes.map Prod.fst) (htd : Needs deps t d) :
    Before (emissionOrder nodes deps) d t := by
  have hinner : ∀ x y, Needs (innerEdges (SortedMap.ofList nodes) deps) x y → Needs deps x y :=
    fun x y h => (mem_innerEdges.mp h).1
  have hne : t ≠ d := by
    rintro rfl
    exact hacyclic t .refl (.single htd)
  refine greedyOrder_before (fun x y h => (mem_innerEdges.mp h).2.2.2)
    (SortedMap.keys_nodup _) ((mem_keys_ofList hnodes).mpr ht) ?_
    (mem_innerEdges.mpr ⟨htd, hne, (mem_keys_ofList hnodes).mpr ht,
      (mem_keys_ofList hnodes).mpr hd⟩)
  intro y hty hyy
  exact hacyclic y (Relation.ReflTransGen.mono hinner _ _ hty)
    (Relation.TransGen.mono hinner _ _ hyy)

/-- The emission order does not depend on the statements: with each statement labelled by its key
the same statements are emitted, and the labels are the emission order. -/
lemma orderByDependency_labelled (deps : List (K × K)) (hnodes : (nodes.map Prod.fst).Nodup) :
    ∃ labelled, orderByDependency (nodes.map fun n => (n.1, n)) deps = some labelled ∧
      orderByDependency nodes deps = some (labelled.map Prod.snd) ∧
      labelled.map Prod.fst = emissionOrder nodes deps ∧ labelled.Perm nodes := by
  let m := SortedMap.ofList nodes
  let m' := SortedMap.ofList (nodes.map fun n => (n.1, n))
  have hnodes' : ((nodes.map fun n => (n.1, n)).map Prod.fst).Nodup := by
    simpa [Function.comp_def] using hnodes
  have hentries : m'.entries = m.entries.map fun e => (e.1, e) :=
    SortedMap.entries_ofList_map (fun e => e) hnodes
  have hkeys : m'.keys = m.keys := by
    rw [SortedMap.keys, SortedMap.keys, hentries, List.map_map]
    rfl
  have horder : emissionOrder (nodes.map fun n => (n.1, n)) deps = emissionOrder nodes deps := by
    have hedges : innerEdges m' deps = innerEdges m deps := by
      apply List.filter_congr
      intro e _
      rw [SortedMap.contains, SortedMap.contains, SortedMap.contains, SortedMap.contains, hkeys]
    show greedyOrder (innerEdges m' deps) m'.keys = greedyOrder (innerEdges m deps) m.keys
    rw [hedges, hkeys]
  have hlookup : ∀ k ∈ emissionOrder nodes deps, ∃ v, m'.lookup k = some (k, v) ∧
      m.lookup k = some v := by
    intro k hk
    have hk : k ∈ m.keys := (greedyOrder_perm _ _).mem_iff.mp hk
    obtain ⟨v, he, hv⟩ := SortedMap.exists_lookup_of_mem_keys hk
    refine ⟨v, SortedMap.lookup_eq_some_of_mem ?_, hv⟩
    rw [hentries]
    exact List.mem_map.mpr ⟨(k, v), he, rfl⟩
  refine ⟨(emissionOrder nodes deps).filterMap m'.lookup, ?_, ?_, ?_, ?_⟩
  · rw [orderByDependency_eq _ _ hnodes', horder]
  · rw [orderByDependency_eq _ _ hnodes, List.map_filterMap]
    congr 1
    apply List.filterMap_congr
    intro k hk
    obtain ⟨v, hv', hv⟩ := hlookup k hk
    simp [m] at hv ⊢
    rw [hv, hv', Option.map_some]
  · rw [List.map_filterMap]
    refine (List.filterMap_congr fun k hk => ?_).trans List.filterMap_some
    obtain ⟨v, hv', -⟩ := hlookup k hk
    rw [hv', Option.map_some]
  · have hperm : (emissionOrder nodes deps).Perm m'.keys := by
      rw [hkeys]
      exact greedyOrder_perm _ _
    refine (hperm.filterMap _).trans ?_
    rw [SortedMap.filterMap_lookup_keys]
    refine ((SortedMap.entries_ofList_perm hnodes').map Prod.snd).trans ?_
    simp [Function.comp_def]

end TdExport.Postgres
