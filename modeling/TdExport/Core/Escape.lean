import Mathlib.Tactic

/-!
# Escaped text

Text in which an escape character takes away the meaning of the character after it, and separators
between pieces of such text.
-/

namespace Core

variable {α : Type*} {esc sep : α} {s t : List α}

/-- Text of plain characters and of pairs that start with the escape character. -/
inductive Balanced (esc sep : α) : List α → Prop
  | nil : Balanced esc sep []
  | plain {c s} : c ≠ esc → c ≠ sep → Balanced esc sep s → Balanced esc sep (c :: s)
  | pair {d s} : Balanced esc sep s → Balanced esc sep (esc :: d :: s)

lemma Balanced.of_forall (h : ∀ c ∈ s, c ≠ esc ∧ c ≠ sep) : Balanced esc sep s := by
  induction s with
  | nil => exact .nil
  | cons c s ih =>
    obtain ⟨hesc, hsep⟩ := h c List.mem_cons_self
    exact .plain hesc hsep (ih fun d hd => h d (List.mem_cons_of_mem _ hd))

lemma Balanced.append (hs : Balanced esc sep s) (ht : Balanced esc sep t) :
    Balanced esc sep (s ++ t) := by
  induction hs with
  | nil => exact ht
  | plain hesc hsep _ ih => exact .plain hesc hsep ih
  | pair _ ih => exact .pair ih

/-! ### Letter by letter -/

/-- A code that is read back letter by letter, whatever follows, is read back as a whole. -/
theorem decode_flatMap {β : Type*} {encode : α → List β} {decode : List β → List α}
    (hnil : decode [] = []) (h : ∀ c t, decode (encode c ++ t) = c :: decode t) (s : List α) :
    decode (s.flatMap encode) = s := by
  induction s with
  | nil => exact hnil
  | cons c s ih => rw [List.flatMap_cons, h, ih]

/-! ### Cutting at separators -/

/-- Put `p` in front of the first piece. -/
def consPiece (p : List α) : List (List α) → List (List α)
  | [] => [p]
  | q :: qs => (p ++ q) :: qs

variable [DecidableEq α]

/-- Cut at the separators that no escape character consumes, reading left to right. -/
def splitUnescaped (esc sep : α) : List α → List (List α)
  | [] => [[]]
  | [c] => if c = sep ∧ c ≠ esc then [[], []] else [[c]]
  | c :: d :: s =>
    if c = esc then consPiece [c, d] (splitUnescaped esc sep s)
    else if c = sep then [] :: splitUnescaped esc sep (d :: s)
    else consPiece [c] (splitUnescaped esc sep (d :: s))

lemma splitUnescaped_esc (d : α) (s : List α) :
    splitUnescaped esc sep (esc :: d :: s) = consPiece [esc, d] (splitUnescaped esc sep s) := by
  simp [splitUnescaped]

lemma splitUnescaped_sep (hne : sep ≠ esc) (s : List α) :
    splitUnescaped esc sep (sep :: s) = [] :: splitUnescaped esc sep s := by
  cases s with
  | nil => simp [splitUnescaped, hne]
  | cons d s => simp [splitUnescaped, hne]

lemma splitUnescaped_plain {c : α} (hesc : c ≠ esc) (hsep : c ≠ sep) (s : List α) :
    splitUnescaped esc sep (c :: s) = consPiece [c] (splitUnescaped esc sep s) := by
  cases s with
  | nil => simp [splitUnescaped, hsep, consPiece]
  | cons d s => simp [splitUnescaped, hesc, hsep]

/-- Balanced text before a separator is one piece. -/
theorem Balanced.splitUnescaped_append_sep (hne : sep ≠ esc) (hs : Balanced esc sep s)
    (t : List α) : splitUnescaped esc sep (s ++ sep :: t) = s :: splitUnescaped esc sep t := by
  induction hs with
  | nil => exact splitUnescaped_sep hne t
  | plain hesc hsep _ ih =>
    rw [List.cons_append, splitUnescaped_plain hesc hsep, ih]
    rfl
  | pair _ ih =>
    rw [List.cons_append, List.cons_append, splitUnescaped_esc, ih]
    rfl

/-- A row of cells, each closed by a separator, is read back cell by cell. -/
theorem splitUnescaped_row (hne : sep ≠ esc) {cells : List (List α)}
    (h : ∀ cell ∈ cells, Balanced esc sep cell) :
    splitUnescaped esc sep (cells.flatMap (· ++ [sep])) = cells ++ [[]] := by
  induction cells with
  | nil => rfl
  | cons cell cells ih =>
    rw [List.flatMap_cons, List.append_assoc, List.singleton_append,
      (h cell List.mem_cons_self).splitUnescaped_append_sep hne,
      ih fun c hc => h c (List.mem_cons_of_mem _ hc)]
    rfl

end Core
