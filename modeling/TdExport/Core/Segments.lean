import Mathlib.Tactic

/-!
# Cutting a list into pieces

A machine reads a list from left to right and says where a new piece starts. Cutting commutes with
putting lists together where a piece starts, and only there.
-/

namespace Core

/-- A machine that cuts lists. What it does with a piece does not depend on what came before. -/
structure Segmenter (σ α : Type*) where
  start : σ
  next : σ → α → σ
  /-- A new piece starts with this element. -/
  starts : σ → α → Bool
  starts_start : ∀ a, starts start a = true
  next_of_starts : ∀ st a, starts st a = true → next st a = next start a

namespace Segmenter

variable {σ α : Type*} (m : Segmenter σ α)

/-- The state after `s` was read. -/
def run (st : σ) (s : List α) : σ := s.foldl m.next st

/-- A piece that has been read, if there is one. -/
def piece : List α → List (List α)
  | [] => []
  | a :: s => [a :: s]

/-- The pieces of the rest of a list; `cur` is the piece that is being read. -/
def piecesFrom : σ → List α → List α → List (List α)
  | _, cur, [] => piece cur
  | st, cur, a :: s =>
    if m.starts st a then piece cur ++ piecesFrom (m.next st a) [a] s
    else piecesFrom (m.next st a) (cur ++ [a]) s

def pieces (s : List α) : List (List α) := m.piecesFrom m.start [] s

/-- No piece starts within the list. -/
def Whole : σ → List α → Prop
  | _, [] => True
  | st, a :: s => m.starts st a = false ∧ Whole (m.next st a) s

/-- At the end of `s` a piece starts with `t`. -/
def Cut (s t : List α) : Prop := ∀ a, t.head? = some a → m.starts (m.run m.start s) a = true

variable {m} {st : σ} {cur s t : List α} {a : α}

lemma Cut.of_append {t' : List α} (h : m.Cut s (t ++ t')) (ht : t ≠ []) : m.Cut s t := by
  obtain ⟨a, t, rfl⟩ := List.exists_cons_of_ne_nil ht
  exact h

lemma run_append (st : σ) (s t : List α) : m.run st (s ++ t) = m.run (m.run st s) t :=
  List.foldl_append

@[simp] lemma piece_nil : (piece [] : List (List α)) = [] := rfl

@[simp] lemma piece_cons (a : α) (s : List α) : piece (a :: s) = [a :: s] := rfl

@[simp] lemma flatten_piece (s : List α) : (piece s).flatten = s := by
  cases s <;> simp

/-- The pieces make up the list. -/
lemma flatten_piecesFrom (st : σ) (cur s : List α) :
    (m.piecesFrom st cur s).flatten = cur ++ s := by
  induction s generalizing st cur with
  | nil => simp [piecesFrom]
  | cons a s ih =>
    rw [piecesFrom]
    split_ifs
    · simp [ih]
    · simp [ih]

theorem flatten_pieces (s : List α) : (m.pieces s).flatten = s :=
  flatten_piecesFrom m.start [] s

lemma piecesFrom_append (h : m.starts (m.run st s) a = true) :
    m.piecesFrom st cur (s ++ a :: t) = m.piecesFrom st cur s ++ m.pieces (a :: t) := by
  induction s generalizing st cur with
  | nil =>
    have hnow : m.starts st a = true := h
    rw [List.nil_append, piecesFrom, piecesFrom, if_pos hnow, pieces, piecesFrom,
      if_pos (m.starts_start a), m.next_of_starts _ _ hnow]
    rfl
  | cons b s ih =>
    rw [List.cons_append, piecesFrom, piecesFrom]
    split_ifs
    · rw [ih h, List.append_assoc]
    · rw [ih h]

/-- Where a piece starts, the two sides are cut on their own. -/
theorem pieces_append (h : m.Cut s t) : m.pieces (s ++ t) = m.pieces s ++ m.pieces t := by
  cases t with
  | nil => simp [pieces, piecesFrom]
  | cons a t => exact piecesFrom_append (h a rfl)

/-- After a cut the machine is where it would be if it had read the second list alone. -/
lemma run_append_of_cut (h : m.Cut s t) (ht : t ≠ []) :
    m.run m.start (s ++ t) = m.run m.start t := by
  obtain ⟨a, t, rfl⟩ := List.exists_cons_of_ne_nil ht
  rw [run_append]
  show m.run (m.next _ a) t = m.run (m.next _ a) t
  rw [m.next_of_starts _ _ (h a rfl)]

lemma piecesFrom_of_whole (h : m.Whole st s) (hcur : cur ≠ []) :
    m.piecesFrom st cur s = [cur ++ s] := by
  induction s generalizing st cur with
  | nil =>
    obtain ⟨a, cur, rfl⟩ := List.exists_cons_of_ne_nil hcur
    simp [piecesFrom]
  | cons a s ih =>
    rw [piecesFrom, h.1, if_neg Bool.false_ne_true, ih h.2 (by simp)]
    simp

/-- A list in which no piece starts is one piece. -/
theorem pieces_of_whole (h : m.Whole (m.next m.start a) s) : m.pieces (a :: s) = [a :: s] := by
  rw [pieces, piecesFrom, if_pos (m.starts_start a), piecesFrom_of_whole h (by simp)]
  rfl

lemma ne_nil_of_pieces {p : List α} (h : m.pieces p = [p]) : p ≠ [] := by
  rintro rfl
  exact absurd h (by simp [pieces, piecesFrom])

/-- Where the first of several pieces starts, their text starts a piece. -/
lemma cut_flatten {p : List α} {l : List (List α)} (hl : ∀ q ∈ l, q ≠ [])
    (hcut : (p :: l).IsChain m.Cut) : m.Cut p l.flatten := by
  cases l with
  | nil => exact fun a ha => absurd ha (by simp)
  | cons q l =>
    obtain ⟨a, q, rfl⟩ := List.exists_cons_of_ne_nil (hl q List.mem_cons_self)
    exact (List.isChain_cons_cons.mp hcut).1

/-- Pieces put together are cut apart again when each starts a piece behind the one before. -/
theorem pieces_flatten {l : List (List α)} (hpiece : ∀ p ∈ l, m.pieces p = [p])
    (hcut : l.IsChain m.Cut) : m.pieces l.flatten = l := by
  induction l with
  | nil => rfl
  | cons p l ih =>
    obtain ⟨hp, hl⟩ := List.forall_mem_cons.mp hpiece
    have hstart := cut_flatten (fun q hq => ne_nil_of_pieces (hl q hq)) hcut
    rw [List.flatten_cons, pieces_append hstart, hp, ih hl hcut.tail]
    rfl

/-- The state behind several pieces is the state behind the last one. -/
theorem run_flatten {l : List (List α)} {p : List α} (hl : ∀ q ∈ l ++ [p], q ≠ [])
    (hcut : (l ++ [p]).IsChain m.Cut) :
    m.run m.start (l ++ [p]).flatten = m.run m.start p := by
  induction l with
  | nil => simp
  | cons q l ih =>
    have hl' : ∀ r ∈ l ++ [p], r ≠ [] := fun r hr => hl r (List.mem_cons_of_mem _ hr)
    have hp : p ≠ [] := hl' p (by simp)
    rw [List.cons_append, List.flatten_cons,
      run_append_of_cut (cut_flatten hl' hcut) (by simp [hp])]
    exact ih hl' hcut.tail

/-- The piece that is being read is the beginning of the first piece. -/
lemma exists_piecesFrom_eq (hcur : cur ≠ []) :
    ∃ p l, m.piecesFrom st cur s = p :: l ∧ cur <+: p := by
  induction s generalizing st cur with
  | nil =>
    obtain ⟨a, cur, rfl⟩ := List.exists_cons_of_ne_nil hcur
    exact ⟨a :: cur, [], rfl, List.prefix_rfl⟩
  | cons a s ih =>
    rw [piecesFrom]
    split_ifs
    · obtain ⟨b, cur, rfl⟩ := List.exists_cons_of_ne_nil hcur
      exact ⟨b :: cur, _, rfl, List.prefix_rfl⟩
    · obtain ⟨p, l, hpieces, hpre⟩ := @ih (m.next st a) (cur ++ [a]) (by simp)
      exact ⟨p, l, hpieces, (List.prefix_append cur [a]).trans hpre⟩

lemma starts_of_piecesFrom {l₁ l₂ : List (List α)} (hst : cur = [] → st = m.start)
    (h : m.piecesFrom st cur (s ++ a :: t) = l₁ ++ l₂) (hl₁ : l₁.flatten = cur ++ s) :
    m.starts (m.run st s) a = true := by
  induction s generalizing st cur l₁ with
  | nil =>
    rw [List.append_nil] at hl₁
    by_cases hcur : cur = []
    · rw [hst hcur]
      exact m.starts_start a
    · show m.starts st a = true
      by_contra hnot
      rw [List.nil_append, piecesFrom, if_neg hnot] at h
      obtain ⟨p, l, hpieces, hpre⟩ := exists_piecesFrom_eq (m := m) (s := t)
        (List.append_ne_nil_of_right_ne_nil cur (List.cons_ne_nil a []))
      rw [hpieces] at h
      cases l₁ with
      | nil => exact hcur hl₁.symm
      | cons q l₁ =>
        obtain ⟨rfl, -⟩ := List.cons.inj h
        have hlen := hpre.length_le
        have hflatten := congrArg List.length hl₁
        simp only [List.flatten_cons, List.length_append, List.length_singleton] at hlen hflatten
        omega
  | cons b s ih =>
    rw [List.cons_append, piecesFrom] at h
    split_ifs at h
    · cases cur with
      | nil => exact ih (by simp) h hl₁
      | cons d cur =>
        cases l₁ with
        | nil => simp at hl₁
        | cons q l₁ =>
          obtain ⟨rfl, hrest⟩ := List.cons.inj h
          refine ih (by simp) hrest ?_
          simpa using hl₁
    · exact ih (by simp) h (by simpa using hl₁)

/-- Where the pieces can be parted, a piece starts. -/
theorem cut_of_pieces_eq {l₁ l₂ : List (List α)} (h : m.pieces (s ++ t) = l₁ ++ l₂)
    (hl₁ : l₁.flatten = s) : m.Cut s t := by
  intro a ha
  cases t with
  | nil => cases ha
  | cons b t =>
    obtain rfl := Option.some_inj.mp ha
    exact starts_of_piecesFrom (fun _ => rfl) h hl₁

end Segmenter

end Core
