import TdExport.Core.Order
import TdExport.Export.Sql.Basic

/-!
# The order of the views

The loop of `order_views` emits every view once, and a view from which no cycle of references is
reached comes after all views it refers to.
-/

namespace TdExport.Sql

open Core

/-! ### The loop, for any table of dependencies -/

section

variable {views : List TableDef} {deps : List (List ℕ)} {s s' : ViewOrder}

/-- The dependencies between positions. -/
def PosDep (views : List TableDef) (deps : List (List ℕ)) (i j : Fin views.length) : Prop :=
  j.1 ∈ deps.getD i.1 []

/-- The state of the loop after the positions `order` were emitted. -/
structure Emitted (views : List TableDef) (deps : List (List ℕ)) (s : ViewOrder)
    (order : List (Fin views.length)) : Prop where
  nodup : order.Nodup
  length_done : s.done.length = views.length
  isDone_iff : ∀ i : Fin views.length, s.isDone i = true ↔ i ∈ order
  ordered_eq : s.ordered = order.map views.get
  ready : ReadyFirst (PosDep views deps) (List.finRange views.length) order

lemma Emitted.start (views : List TableDef) (deps : List (List ℕ)) :
    Emitted views deps ⟨List.replicate views.length false, []⟩ [] where
  nodup := List.nodup_nil
  length_done := List.length_replicate
  isDone_iff i := by simp [ViewOrder.isDone]
  ordered_eq := rfl
  ready := .nil

variable {order : List (Fin views.length)}

/-- As long as views are missing, one of them is not emitted yet. -/
lemma exists_not_mem_of_length_lt (h : order.length < views.length) :
    ∃ i : Fin views.length, i ∉ order := by
  by_contra hall
  push Not at hall
  have := ((List.nodup_finRange views.length).subperm fun i _ => hall i).length_le
  rw [List.length_finRange] at this
  exact absurd h (by omega)

/-- The choice of the next view: one that is left, and a ready one if there is any. -/
lemma Emitted.nextView (h : Emitted views deps s order)
    (hdeps : ∀ i, ∀ j ∈ deps.getD i [], j < views.length)
    (hlt : order.length < views.length) :
    ∃ i : Fin views.length, nextView views.length deps s = i.1 ∧ i ∉ order ∧
      ((∀ j, PosDep views deps i j → j ∈ order) ∨
        Stuck (PosDep views deps) (List.finRange views.length) order) := by
  cases hready : (List.range views.length).find?
      fun i => !s.isDone i && (deps.getD i []).all s.isDone with
  | some i =>
    have hi := List.find?_some hready
    have hn := List.mem_range.mp (List.mem_of_find?_eq_some hready)
    simp only [Bool.and_eq_true, Bool.not_eq_true', List.all_eq_true] at hi
    refine ⟨⟨i, hn⟩, by simp only [Sql.nextView, hready, Option.getD_some], ?_, .inl ?_⟩
    · rw [← h.isDone_iff]
      simp [hi.1]
    · exact fun j hj => (h.isDone_iff j).mp (hi.2 j.1 hj)
  | none =>
    obtain ⟨k, hk⟩ := exists_not_mem_of_length_lt hlt
    have hstuck : Stuck (PosDep views deps) (List.finRange views.length) order := by
      intro x _ hx
      have hnot := List.find?_eq_none.mp hready x.1 (List.mem_range.mpr x.2)
      rw [← h.isDone_iff, Bool.not_eq_true] at hx
      simp only [hx, Bool.not_false, Bool.true_and, List.all_eq_true, not_forall] at hnot
      obtain ⟨j, hj, hjdone⟩ := hnot
      refine ⟨⟨j, hdeps x j hj⟩, List.mem_finRange _, hj, ?_⟩
      rwa [← h.isDone_iff]
    cases hleft : (List.range views.length).find? fun i => !s.isDone i with
    | some i =>
      have hi := List.find?_some hleft
      have hn := List.mem_range.mp (List.mem_of_find?_eq_some hleft)
      refine ⟨⟨i, hn⟩, ?_, ?_, .inr hstuck⟩
      · simp only [Sql.nextView, hready, hleft, Option.getD_none, Option.getD_some]
      · rw [← h.isDone_iff]
        simpa using hi
    | none =>
      have hnot := List.find?_eq_none.mp hleft k.1 (List.mem_range.mpr k.2)
      rw [← h.isDone_iff] at hk
      exact absurd hk (by simpa using hnot)

/-- One turn emits one more view. -/
lemma Emitted.step (h : Emitted views deps s order)
    (hdeps : ∀ i, ∀ j ∈ deps.getD i [], j < views.length)
    (hlt : order.length < views.length) :
    ∃ i s', orderViewsStep views deps s = some s' ∧ Emitted views deps s' (order ++ [i]) := by
  obtain ⟨i, hnext, hi, hready⟩ := h.nextView hdeps hlt
  have hlen : s.ordered.length < views.length := by rwa [h.ordered_eq, List.length_map]
  refine ⟨i, ⟨s.done.set i true, s.ordered ++ [views.get i]⟩, ?_, ?_⟩
  · simp [orderViewsStep, hlen, hnext]
  · refine ⟨?_, ?_, ?_, ?_, h.ready.concat hready⟩
    · exact List.concat_eq_append ▸ h.nodup.concat hi
    · simpa using h.length_done
    · intro j
      have hj := h.isDone_iff j
      by_cases heq : j = i
      · subst heq
        simp [ViewOrder.isDone, h.length_done]
      · have hne : i.1 ≠ j.1 := fun hij => heq (Fin.ext hij.symm)
        simpa [ViewOrder.isDone, List.getD, hne, heq] using hj
    · simp [h.ordered_eq]

/-- The loop ends, and it has emitted every position once. -/
lemma exists_order (hdeps : ∀ i, ∀ j ∈ deps.getD i [], j < views.length) :
    ∃ r order, Loop.run (orderViewsStep views deps) views.length
      ⟨List.replicate views.length false, []⟩ = some r ∧ Emitted views deps r order ∧
      order.Perm (List.finRange views.length) := by
  obtain ⟨r, hrun, ⟨order, hr⟩, hstop⟩ :=
    @Loop.run_total _ (orderViewsStep views deps) _ views.length
      (fun s => ∃ order, Emitted views deps s order)
      (fun s => views.length - s.ordered.length) (by
        rintro s s' ⟨order, hs⟩ hstep
        have hlt : order.length < views.length := by
          by_contra hge
          rw [orderViewsStep, hs.ordered_eq, List.length_map, if_neg hge] at hstep
          cases hstep
        obtain ⟨i, t, ht, hs'⟩ := hs.step hdeps hlt
        obtain rfl := Option.some_inj.mp (hstep.symm.trans ht)
        refine ⟨⟨_, hs'⟩, ?_⟩
        rw [hs.ordered_eq, hs'.ordered_eq, List.length_map, List.length_map, List.length_append,
          List.length_singleton]
        omega)
      ⟨[], Emitted.start views deps⟩ (by simp)
  have hfull : views.length ≤ order.length := by
    by_contra hlt
    obtain ⟨i, t, ht, -⟩ := hr.step hdeps (by omega)
    rw [hstop] at ht
    cases ht
  refine ⟨r, order, hrun, hr, ?_⟩
  refine (hr.nodup.subperm fun i _ => List.mem_finRange i).perm_of_length_le ?_
  rwa [List.length_finRange]

end

/-! ### The references between the views of a schema -/

variable (u : Unicode) (schema : Str) (dbType : DbType)

/-- `v` refers to `w`, another of the views. -/
def Refers (views : List TableDef) (v w : TableDef) : Prop :=
  v ∈ views ∧ w ∈ views ∧ dependsOnView u schema dbType v w = true

variable {u schema dbType} {views : List TableDef}

lemma getD_viewDeps (i : Fin views.length) :
    (viewDeps u schema views dbType).getD i.1 [] =
      (views.zipIdx.filter fun p => dependsOnView u schema dbType (views.get i) p.1).map
        Prod.snd := by
  simp [viewDeps, List.getD]

lemma viewDeps_lt (i : ℕ) : ∀ j ∈ (viewDeps u schema views dbType).getD i [],
    j < views.length := by
  intro j hj
  by_cases hi : i < views.length
  · rw [getD_viewDeps ⟨i, hi⟩] at hj
    obtain ⟨p, hp, rfl⟩ := List.mem_map.mp hj
    have := List.snd_lt_of_mem_zipIdx (List.mem_of_mem_filter hp)
    simpa using this
  · simp [viewDeps, List.getD, Nat.not_lt.mp hi] at hj

lemma posDep_viewDeps_iff {i j : Fin views.length} :
    PosDep views (viewDeps u schema views dbType) i j ↔
      dependsOnView u schema dbType (views.get i) (views.get j) = true := by
  rw [PosDep, getD_viewDeps, List.mem_map]
  constructor
  · rintro ⟨⟨w, k⟩, hmem, rfl⟩
    obtain ⟨hw, hdep⟩ := List.mem_filter.mp hmem
    obtain ⟨-, hget⟩ := List.mem_zipIdx' hw
    rw [List.get_eq_getElem, List.get_eq_getElem, ← hget]
    exact hdep
  · intro h
    refine ⟨(views.get j, j.1), List.mem_filter.mpr ⟨?_, h⟩, rfl⟩
    rw [List.mk_mem_zipIdx_iff_getElem?]
    simp

lemma refers_of_posDep {i j : Fin views.length}
    (h : PosDep views (viewDeps u schema views dbType) i j) :
    Refers u schema dbType views (views.get i) (views.get j) :=
  ⟨List.get_mem _ _, List.get_mem _ _, posDep_viewDeps_iff.mp h⟩

/-- A cycle of positions is a cycle of views. -/
lemma acyclicFrom_posDep {i : Fin views.length}
    (h : AcyclicFrom (Refers u schema dbType views) (views.get i)) :
    AcyclicFrom (PosDep views (viewDeps u schema views dbType)) i := by
  intro j hij hjj
  exact h (views.get j) (hij.lift views.get fun _ _ => refers_of_posDep)
    (hjj.lift views.get fun _ _ => refers_of_posDep)

lemma orderViews_emitted (u : Unicode) (schema : Str) (views : List TableDef) (dbType : DbType) :
    ∃ r order, orderViews u schema views dbType = some r.ordered ∧
      Emitted views (viewDeps u schema views dbType) r order ∧
      order.Perm (List.finRange views.length) := by
  obtain ⟨r, order, hrun, hr, hperm⟩ :=
    exists_order fun i j hj => @viewDeps_lt u schema dbType views i j hj
  exact ⟨r, order, by rw [orderViews, hrun, Option.map_some], hr, hperm⟩

lemma Emitted.perm {deps : List (List ℕ)} {s : ViewOrder} {order : List (Fin views.length)}
    (h : Emitted views deps s order) (hperm : order.Perm (List.finRange views.length)) :
    s.ordered.Perm views := by
  rw [h.ordered_eq]
  simpa using hperm.map views.get

/-- The loop ends, and no view is lost or repeated. -/
lemma orderViews_perm (u : Unicode) (schema : Str) (views : List TableDef) (dbType : DbType) :
    ∃ result, orderViews u schema views dbType = some result ∧ result.Perm views := by
  obtain ⟨r, order, hresult, hr, hperm⟩ := orderViews_emitted u schema views dbType
  exact ⟨r.ordered, hresult, hr.perm hperm⟩

/-- `order_views` ends with a permutation of its input, in which a view that reaches no cycle of
references comes after every view it refers to. -/
theorem orderViews_respects_references (u : Unicode) (schema : Str) (views : List TableDef)
    (dbType : DbType) :
    ∃ result, orderViews u schema views dbType = some result ∧ result.Perm views ∧
      ∀ v, AcyclicFrom (Refers u schema dbType views) v →
        ∀ w, Refers u schema dbType views v w → Before result w v := by
  obtain ⟨r, order, hresult, hr, hperm⟩ := orderViews_emitted u schema views dbType
  refine ⟨r.ordered, hresult, hr.perm hperm, ?_⟩
  rintro v hv w ⟨-, hw, hvw⟩
  obtain ⟨j, rfl⟩ := List.get_of_mem hw
  rw [hr.ordered_eq]
  apply Before.map
  intro i _ hi
  subst hi
  have hfin : ∀ k l, PosDep views (viewDeps u schema views dbType) k l →
      l ∈ List.finRange views.length := fun _ l _ => List.mem_finRange l
  have hacc := (acyclicFrom_posDep hv).acc hfin
  exact hr.ready.before hr.nodup (List.mem_finRange i) hacc (posDep_viewDeps_iff.mpr hvw)

end TdExport.Sql
