import Mathlib.Data.Set.Basic
import Mathlib.Tactic

/-!
# Rectangles in a grid

Lines of spans that are put one below the other. Spans that stand from left to right in their lines
give rectangles that do not overlap.
-/

namespace Core

/-! ### Rectangles -/

/-- The cells from the line `top` to the line `bottom` and from the column `left` to the column
`right`. -/
structure Rect where
  top : ℕ
  left : ℕ
  bottom : ℕ
  right : ℕ
  deriving DecidableEq, Repr

namespace Rect

variable {r r' : Rect}

/-- Lines and columns of the cells. -/
def cells (r : Rect) : Set (ℕ × ℕ) :=
  {p | (r.top ≤ p.1 ∧ p.1 ≤ r.bottom) ∧ r.left ≤ p.2 ∧ p.2 ≤ r.right}

/-- The two have no cell in common. -/
def Apart (r r' : Rect) : Prop := ∀ p ∈ r.cells, p ∉ r'.cells

lemma apart_of_bottom_lt (h : r.bottom < r'.top) : r.Apart r' := by
  rintro p ⟨⟨-, hle⟩, -⟩ ⟨⟨hge, -⟩, -⟩
  exact absurd (hge.trans hle) (not_le.mpr h)

lemma apart_of_right_lt (h : r.right < r'.left) : r.Apart r' := by
  rintro p ⟨-, -, hle⟩ ⟨-, hge, -⟩
  exact absurd (hge.trans hle) (not_le.mpr h)

end Rect

/-! ### Lines -/

/-- The cells of a line from the column `left` to the column `right`. -/
structure Span where
  left : ℕ
  right : ℕ
  deriving DecidableEq, Repr

def Span.at (s : Span) (row : ℕ) : Rect := ⟨row, s.left, row, s.right⟩

/-- Each span ends before the next one starts. -/
def LeftToRight (line : List Span) : Prop := line.Pairwise fun s s' => s.right < s'.left

instance (line : List Span) : Decidable (LeftToRight line) :=
  inferInstanceAs (Decidable (line.Pairwise fun s s' => s.right < s'.left))

/-- The rectangles of lines one below the other. -/
def stack : ℕ → List (List Span) → List Rect
  | _, [] => []
  | row, line :: lines => line.map (Span.at · row) ++ stack (row + 1) lines

variable {row : ℕ} {line : List Span} {lines : List (List Span)} {r : Rect}

lemma top_of_mem_map (h : r ∈ line.map (Span.at · row)) : r.top = row ∧ r.bottom = row := by
  obtain ⟨s, -, rfl⟩ := List.mem_map.mp h
  exact ⟨rfl, rfl⟩

/-- A rectangle of the stack lies in one of its lines. -/
lemma mem_stack (h : r ∈ stack row lines) :
    r.bottom = r.top ∧ row ≤ r.top ∧ r.top < row + lines.length := by
  induction lines generalizing row with
  | nil => cases h
  | cons line lines ih =>
    rcases List.mem_append.mp h with h | h
    · obtain ⟨htop, hbottom⟩ := top_of_mem_map h
      exact ⟨hbottom.trans htop.symm, htop.ge, by simp [htop]⟩
    · obtain ⟨hline, hge, hlt⟩ := ih h
      refine ⟨hline, (Nat.le_succ row).trans hge, ?_⟩
      rwa [List.length_cons, ← Nat.add_assoc, Nat.add_right_comm]

/-- The lines in which a rectangle lies are those that have a span. -/
lemma exists_mem_stack_iff (hlines : ∀ line ∈ lines, line ≠ []) {k : ℕ} :
    (∃ r ∈ stack row lines, r.top = k) ↔ row ≤ k ∧ k < row + lines.length := by
  induction lines generalizing row with
  | nil =>
    refine iff_of_false (by simp [stack]) ?_
    rw [List.length_nil, Nat.add_zero]
    omega
  | cons line lines ih =>
    obtain ⟨hline, hrest⟩ := List.forall_mem_cons.mp hlines
    have hfirst : (∃ r ∈ line.map (Span.at · row), r.top = k) ↔ row = k := by
      obtain ⟨s, hs⟩ := List.exists_mem_of_ne_nil line hline
      constructor
      · rintro ⟨r, hr, rfl⟩
        exact (top_of_mem_map hr).1.symm
      · rintro rfl
        exact ⟨_, List.mem_map_of_mem hs, rfl⟩
    simp only [stack, List.mem_append, or_and_right, exists_or, hfirst, ih hrest,
      List.length_cons]
    omega

theorem pairwise_apart_stack (h : ∀ line ∈ lines, LeftToRight line) :
    (stack row lines).Pairwise Rect.Apart := by
  induction lines generalizing row with
  | nil => exact List.Pairwise.nil
  | cons line lines ih =>
    obtain ⟨hline, hlines⟩ := List.forall_mem_cons.mp h
    refine List.pairwise_append.mpr ⟨?_, ih hlines, fun r hr r' hr' => ?_⟩
    · refine List.pairwise_map.mpr (List.Pairwise.imp (fun {s s'} hlt => ?_) hline)
      exact Rect.apart_of_right_lt hlt
    · obtain ⟨-, hbottom⟩ := top_of_mem_map hr
      obtain ⟨-, hge, -⟩ := mem_stack hr'
      exact Rect.apart_of_bottom_lt (hbottom ▸ hge)

end Core
