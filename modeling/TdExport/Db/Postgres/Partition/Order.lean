import TdExport.Db.Postgres.Partition.Basic

/-!
# Children before parents

The order of `order_tree_indexes` over every forest of indexes.
-/

namespace TdExport.Postgres

open Core

variable {indexes : List TreeIndex} {i j p r s : TreeIndex}

/-- `p` is in the list, and `i` is attached to it. -/
def Attached (indexes : List TreeIndex) (i p : TreeIndex) : Prop :=
  p ∈ indexes ∧ i.parent = some p.oid

/-- `r` is the root of the tree of `i`. -/
def TreeRoot (indexes : List TreeIndex) (r i : TreeIndex) : Prop :=
  Relation.ReflTransGen (Attached indexes) i r ∧ ∀ p, ¬ Attached indexes r p

/-- Each index that is attached to an index of the list is on a deeper level. -/
def LevelsGrow (indexes : List TreeIndex) : Prop :=
  ∀ i ∈ indexes, ∀ p, Attached indexes i p → p.level < i.level

lemma byOid_eq_some_iff (hoids : (indexes.map TreeIndex.oid).Nodup) {oid : ℤ} :
    byOid indexes oid = some p ↔ p ∈ indexes ∧ p.oid = oid := by
  constructor
  · intro h
    have hmem := List.mem_of_find?_eq_some h
    exact ⟨List.mem_reverse.mp hmem, by simpa using List.find?_some h⟩
  · rintro ⟨hp, rfl⟩
    cases h : byOid indexes p.oid with
    | none =>
      have hnot := List.find?_eq_none.mp h p (List.mem_reverse.mpr hp)
      simp at hnot
    | some q =>
      have hq := List.mem_reverse.mp (List.mem_of_find?_eq_some h)
      have hoid : q.oid = p.oid := by simpa using List.find?_some h
      rw [List.inj_on_of_nodup_map hoids hq hp hoid]

lemma parentIn_eq_some_iff (hoids : (indexes.map TreeIndex.oid).Nodup) :
    i.parentIn indexes = some p ↔ Attached indexes i p := by
  rw [TreeIndex.parentIn, Option.bind_eq_some_iff, Attached]
  constructor
  · rintro ⟨oid, hparent, hfound⟩
    obtain ⟨hp, rfl⟩ := (byOid_eq_some_iff hoids).mp hfound
    exact ⟨hp, hparent⟩
  · rintro ⟨hp, hparent⟩
    exact ⟨p.oid, hparent, (byOid_eq_some_iff hoids).mpr ⟨hp, rfl⟩⟩

lemma isRoot_parentIn_iff (hoids : (indexes.map TreeIndex.oid).Nodup) :
    IsRoot (TreeIndex.parentIn indexes) r i ↔ TreeRoot indexes r i := by
  have hattached : (fun a b => a.parentIn indexes = some b) = Attached indexes := by
    funext a b
    exact propext (parentIn_eq_some_iff hoids)
  have hnone : r.parentIn indexes = none ↔ ∀ p, ¬ Attached indexes r p := by
    rw [Option.eq_none_iff_forall_ne_some]
    exact forall_congr' fun p => not_congr (parentIn_eq_some_iff hoids)
  rw [IsRoot, TreeRoot, hattached, hnone]

/-- The bounded walk of `order_tree_indexes` finds the root. -/
lemma treeRoot_rootOf (hoids : (indexes.map TreeIndex.oid).Nodup) (hlevels : LevelsGrow indexes)
    (hi : i ∈ indexes) : TreeRoot indexes (rootOf indexes i) i := by
  rw [← isRoot_parentIn_iff hoids, rootOf, hoids.dedup, List.length_map]
  apply isRoot_climb TreeIndex.level
  · intro a b hab
    exact ((parentIn_eq_some_iff hoids).mp hab).1
  · intro a ha b hab
    exact hlevels a ha b ((parentIn_eq_some_iff hoids).mp hab)
  · exact hi

lemma TreeRoot.eq_rootOf (hoids : (indexes.map TreeIndex.oid).Nodup)
    (hlevels : LevelsGrow indexes) (hi : i ∈ indexes) (h : TreeRoot indexes r i) :
    r = rootOf indexes i := by
  have hroot := treeRoot_rootOf hoids hlevels hi
  rw [← isRoot_parentIn_iff hoids] at h hroot
  exact h.unique hroot

lemma TreeRoot.of_attached (hip : Attached indexes i p) (h : TreeRoot indexes r p) :
    TreeRoot indexes r i :=
  ⟨.head hip h.1, h.2⟩

lemma TreeRoot.mem (hi : i ∈ indexes) (h : TreeRoot indexes r i) : r ∈ indexes := by
  rcases Relation.ReflTransGen.cases_tail h.1 with rfl | ⟨q, -, hq⟩
  · exact hi
  · exact hq.1

/-! ### The sort key -/

lemma treeKey_lt_of_level (h : (rootOf indexes i).level < (rootOf indexes j).level) :
    treeKey indexes i < treeKey indexes j :=
  Prod.Lex.toLex_lt_toLex.mpr (.inl h)

/-- Within a tree the index on the deeper level has the smaller key. -/
lemma treeKey_lt_of_deeper (hroot : rootOf indexes i = rootOf indexes j)
    (hlevel : j.level < i.level) : treeKey indexes i < treeKey indexes j := by
  have hdeeper : toLex (OrderDual.toDual i.level, i.oid) <
      toLex (OrderDual.toDual j.level, j.oid) :=
    Prod.Lex.toLex_lt_toLex.mpr (.inl (OrderDual.toDual_lt_toDual.mpr hlevel))
  rw [treeKey, treeKey, hroot]
  exact Prod.Lex.toLex_lt_toLex.mpr (.inr ⟨rfl, Prod.Lex.toLex_lt_toLex.mpr (.inr ⟨rfl, hdeeper⟩)⟩)

/-- A key between two keys of one tree has the root of that tree. -/
lemma rootOf_oid_eq_of_between {k : TreeIndex} (hroot : rootOf indexes i = rootOf indexes j)
    (hik : treeKey indexes i ≤ treeKey indexes k) (hkj : treeKey indexes k ≤ treeKey indexes j) :
    (rootOf indexes k).oid = (rootOf indexes i).oid := by
  simp only [treeKey, Prod.Lex.toLex_le_toLex] at hik hkj
  rw [← hroot] at hkj
  omega

/-! ### The four guarantees -/

/-- For indexes with distinct OIDs on levels that grow from parent to child, each statement comes
once; every index comes before its parent; the indexes of one tree stand together; and a tree with
a root on a higher level comes first. Each index has one root. -/
theorem orderTreeIndexes_order (indexes : List TreeIndex)
    (hoids : (indexes.map TreeIndex.oid).Nodup) (hlevels : LevelsGrow indexes) :
    (∀ i ∈ indexes, ∃! r, TreeRoot indexes r i) ∧
      ∃ ordered, orderTreeIndexes indexes =
          ordered.map (fun i => withoutOnOnly i.definition ++ ";") ∧
        ordered.Perm indexes ∧
        (∀ i ∈ indexes, ∀ p, Attached indexes i p → Before ordered i p) ∧
        (∀ l₁ i l₂ j l₃ r, ordered = l₁ ++ i :: l₂ ++ j :: l₃ → TreeRoot indexes r i →
          TreeRoot indexes r j → ∀ k ∈ l₂, TreeRoot indexes r k) ∧
        ∀ i ∈ indexes, ∀ j ∈ indexes, ∀ r s, TreeRoot indexes r i → TreeRoot indexes s j →
          r.level < s.level → Before ordered i j := by
  have hperm := sortByCachedKey_perm (treeKey indexes) indexes
  have hsorted := sortByCachedKey_sorted (treeKey indexes) indexes
  constructor
  · intro i hi
    exact ⟨rootOf indexes i, treeRoot_rootOf hoids hlevels hi,
      fun r hr => hr.eq_rootOf hoids hlevels hi⟩
  refine ⟨sortByCachedKey (treeKey indexes) indexes, rfl, hperm, ?_, ?_, ?_⟩
  · intro i hi p hip
    have hroot : rootOf indexes i = rootOf indexes p := by
      have hp := treeRoot_rootOf hoids hlevels hip.1
      exact ((hp.of_attached hip).eq_rootOf hoids hlevels hi).symm
    exact before_of_key_lt hsorted (hperm.mem_iff.mpr hi)
      (treeKey_lt_of_deeper hroot (hlevels i hi p hip))
  · intro l₁ i l₂ j l₃ r heq hri hrj k hk
    have hmem : ∀ x ∈ l₁ ++ i :: l₂ ++ j :: l₃, x ∈ indexes := by
      intro x hx
      rw [← heq] at hx
      exact hperm.mem_iff.mp hx
    have hi : i ∈ indexes := hmem i (by simp)
    have hj : j ∈ indexes := hmem j (by simp)
    have hkmem : k ∈ indexes := hmem k (by simp [hk])
    have hroot : rootOf indexes i = rootOf indexes j := by
      rw [← hri.eq_rootOf hoids hlevels hi, ← hrj.eq_rootOf hoids hlevels hj]
    rw [heq] at hsorted
    obtain ⟨hik, hkj⟩ := key_between hsorted hk
    have hkroot := treeRoot_rootOf hoids hlevels hkmem
    have hoid := rootOf_oid_eq_of_between hroot hik hkj
    rw [← hri.eq_rootOf hoids hlevels hi] at hoid
    rwa [List.inj_on_of_nodup_map hoids (hkroot.mem hkmem) (hri.mem hi) hoid] at hkroot
  · intro i hi j hj r s hr hs hlt
    rw [hr.eq_rootOf hoids hlevels hi, hs.eq_rootOf hoids hlevels hj] at hlt
    exact before_of_key_lt hsorted (hperm.mem_iff.mpr hi) (treeKey_lt_of_level hlt)

/-! ### A partitioned table with two levels -/

/-- The index of the parent, the index of the partition that is attached to it, and an index of
the partition alone. -/
def logIndexes : List TreeIndex :=
  [⟨1, 0, none, "CREATE INDEX p_k ON ONLY s.p USING btree (k)"⟩,
    ⟨2, 1, some 1, "CREATE INDEX c_k ON s.c USING btree (k)"⟩,
    ⟨3, 1, none, "CREATE INDEX c_own ON s.c USING btree (k)"⟩]

lemma levelsGrow_logIndexes : LevelsGrow logIndexes := by
  have hgrow : ∀ i ∈ logIndexes, ∀ p ∈ logIndexes, i.parent = some p.oid → p.level < i.level := by
    simp [logIndexes]
  intro i hi p hip
  exact hgrow i hi p hip.1 hip.2

theorem orderTreeIndexes_order_logIndexes :
    (logIndexes.map TreeIndex.oid).Nodup ∧ LevelsGrow logIndexes ∧
      (∀ i ∈ logIndexes, ∃! r, TreeRoot logIndexes r i) ∧
      ∃ ordered : List TreeIndex,
        orderTreeIndexes logIndexes =
          ordered.map (fun i => withoutOnOnly i.definition ++ ";") ∧
        ordered.Perm logIndexes ∧
        ∀ i ∈ logIndexes, ∀ p, Attached logIndexes i p → Before ordered i p := by
  have hoids : (logIndexes.map TreeIndex.oid).Nodup := by simp [logIndexes]
  obtain ⟨hroots, ordered, horder, hperm, hbefore, -⟩ :=
    orderTreeIndexes_order logIndexes hoids levelsGrow_logIndexes
  exact ⟨hoids, levelsGrow_logIndexes, hroots, ordered, horder, hperm, hbefore⟩

end TdExport.Postgres
