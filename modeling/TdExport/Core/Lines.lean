import Mathlib.Tactic

/-!
# Lines

A text is cut into lines at its line breaks. What is counted line by line adds up over texts that
end their last line.
-/

namespace Core

variable {α β : Type*}

/-! ### Neighbours -/

section Neighbours

variable [DecidableEq α] {a b : α} {s t : List α}

/-- The number of places where `b` follows `a` directly. -/
def pairCount (a b : α) : List α → ℕ
  | [] => 0
  | x :: s => (if x = a ∧ s.head? = some b then 1 else 0) + pairCount a b s

@[simp] lemma pairCount_nil : pairCount a b [] = 0 := rfl

@[simp] lemma pairCount_cons (x : α) (s : List α) :
    pairCount a b (x :: s) = (if x = a ∧ s.head? = some b then 1 else 0) + pairCount a b s := rfl

lemma pairCount_eq_zero_of_not_mem (h : a ∉ s) : pairCount a b s = 0 := by
  induction s with
  | nil => rfl
  | cons x s ih =>
    have hx : x ≠ a := fun hx => h (hx ▸ List.mem_cons_self)
    rw [pairCount_cons, ih fun ha => h (List.mem_cons_of_mem _ ha), if_neg fun hborder =>
      hx hborder.1]

/-- Only at the border can two texts have more than the places of either. -/
lemma pairCount_append (s t : List α) :
    pairCount a b (s ++ t) =
      pairCount a b s + pairCount a b t +
        if s.getLast? = some a ∧ t.head? = some b then 1 else 0 := by
  induction s with
  | nil => simp
  | cons x s ih =>
    cases s with
    | nil => simp [add_comm]
    | cons y s =>
      have hhead : (y :: s ++ t).head? = (y :: s).head? := rfl
      rw [List.cons_append, pairCount_cons, ih, pairCount_cons x, List.getLast?_cons_cons, hhead]
      omega

lemma pairCount_append_eq_zero :
    pairCount a b (s ++ t) = 0 ↔
      pairCount a b s = 0 ∧ pairCount a b t = 0 ∧ ¬(s.getLast? = some a ∧ t.head? = some b) := by
  rw [pairCount_append]
  split_ifs with hborder
  · simp [hborder]
  · simp [hborder]

lemma pairCount_append_of_getLast? (h : s.getLast? ≠ some a) (t : List α) :
    pairCount a b (s ++ t) = pairCount a b s + pairCount a b t := by
  simp [pairCount_append, h]

lemma pairCount_append_of_head? (s : List α) (h : t.head? ≠ some b) :
    pairCount a b (s ++ t) = pairCount a b s + pairCount a b t := by
  simp [pairCount_append, h]

lemma pairCount_flatMap {f : β → List α} {l : List β}
    (h : ∀ x ∈ l, (f x).getLast? ≠ some a) :
    pairCount a b (l.flatMap f) = (l.map fun x => pairCount a b (f x)).sum := by
  induction l with
  | nil => rfl
  | cons x l ih =>
    rw [List.flatMap_cons, pairCount_append_of_getLast? (h x List.mem_cons_self),
      ih fun y hy => h y (List.mem_cons_of_mem _ hy), List.map_cons, List.sum_cons]

end Neighbours

/-! ### Lines -/

variable {isBreak : α → Bool} {s t : List α}

lemma length_splitOnP (isBreak : α → Bool) (s : List α) :
    (s.splitOnP isBreak).length = s.countP isBreak + 1 := by
  induction s with
  | nil => simp
  | cons x s ih =>
    rw [List.splitOnP_cons_eq_if_modifyHead]
    by_cases hx : isBreak x = true
    · simp [hx, ih]
    · simp [hx, ih]

/-- Text without a line break goes to the first line. -/
lemma splitOnP_append_of_forall (h : ∀ x ∈ s, isBreak x = false) (t : List α) :
    (s ++ t).splitOnP isBreak = (t.splitOnP isBreak).modifyHead (s ++ ·) := by
  induction s with
  | nil => cases h : t.splitOnP isBreak <;> simp [h]
  | cons x s ih =>
    have ih := ih fun y hy => h y (List.mem_cons_of_mem _ hy)
    rw [List.cons_append, List.splitOnP_cons_eq_if_modifyHead, ih, List.modifyHead_modifyHead]
    simp [h x List.mem_cons_self, Function.comp_def]

/-- The text is empty or ends with a line break. -/
def EndsLine (isBreak : α → Bool) (s : List α) : Prop := ∀ x ∈ s.getLast?, isBreak x = true

lemma endsLine_nil : EndsLine isBreak [] := by simp [EndsLine]

lemma endsLine_concat {x : α} (hx : isBreak x = true) (s : List α) :
    EndsLine isBreak (s ++ [x]) := by
  simp [EndsLine, hx]

lemma EndsLine.append (hs : EndsLine isBreak s) (ht : EndsLine isBreak t) :
    EndsLine isBreak (s ++ t) := by
  intro x hx
  rw [List.getLast?_append] at hx
  cases hlast : t.getLast? with
  | none => exact hs x (by simpa [hlast] using hx)
  | some y => exact ht x (by simpa [hlast] using hx)

lemma EndsLine.flatMap {f : β → List α} {l : List β} (h : ∀ b ∈ l, EndsLine isBreak (f b)) :
    EndsLine isBreak (l.flatMap f) := by
  induction l with
  | nil => exact endsLine_nil
  | cons b l ih =>
    rw [List.flatMap_cons]
    exact (h b List.mem_cons_self).append (ih fun c hc => h c (List.mem_cons_of_mem _ hc))

/-- `line` is one of the lines of the text `before ++ line ++ after`. -/
structure IsLine (isBreak : α → Bool) (before line after : List α) : Prop where
  starts : EndsLine isBreak before
  whole : ∀ x ∈ line, isBreak x = false
  ends : ∀ x ∈ after.head?, isBreak x = true

/-- The lines of a text that ends its last line. -/
def fullLines (isBreak : α → Bool) (s : List α) : List (List α) := (s.splitOnP isBreak).dropLast

lemma splitOnP_concat_append {x : α} (hx : isBreak x = true) (s t : List α) :
    ((s ++ [x]) ++ t).splitOnP isBreak = s.splitOnP isBreak ++ t.splitOnP isBreak := by
  rw [List.append_assoc, List.singleton_append, List.splitOnP_append_cons s t hx]

/-- A text that ends its last line leaves the lines of what follows as they are. -/
lemma EndsLine.splitOnP_append (hs : EndsLine isBreak s) (t : List α) :
    (s ++ t).splitOnP isBreak = fullLines isBreak s ++ t.splitOnP isBreak := by
  rcases List.eq_nil_or_concat s with rfl | ⟨r, x, rfl⟩
  · simp [fullLines]
  · have hx : isBreak x = true := hs x (by simp)
    have hr : (r ++ [x]).splitOnP isBreak = r.splitOnP isBreak ++ [[]] := by
      simpa using splitOnP_concat_append hx r []
    rw [List.concat_eq_append, splitOnP_concat_append hx, fullLines, hr, List.dropLast_concat]

/-! ### Counting line by line -/

/-- `m` adds up over texts that end their last line. -/
structure LineAdditive (isBreak : α → Bool) (m : List α → ℕ) : Prop where
  nil : m [] = 0
  append : ∀ {s} t, EndsLine isBreak s → m (s ++ t) = m s + m t

/-- The number of lines with a property that an empty line does not have. -/
lemma lineAdditive_countP {p : List α → Bool} (hp : p [] = false) :
    LineAdditive isBreak fun s => (s.splitOnP isBreak).countP p where
  nil := by simp [hp]
  append {s} t hs := by
    have hempty : (s.splitOnP isBreak).countP p = (fullLines isBreak s).countP p := by
      simpa [hp] using congrArg (List.countP p) (hs.splitOnP_append [])
    rw [hs.splitOnP_append, List.countP_append, hempty]

lemma lineAdditive_pairCount [DecidableEq α] {a b : α} (ha : isBreak a = false) :
    LineAdditive isBreak (pairCount a b) where
  nil := rfl
  append {s} t hs := by
    refine pairCount_append_of_getLast? (fun hlast => ?_) t
    rw [hs a hlast] at ha
    exact Bool.noConfusion ha

namespace LineAdditive

variable {m : List α → ℕ}

lemma flatMap (hm : LineAdditive isBreak m) {f : β → List α} {l : List β}
    (h : ∀ b ∈ l, EndsLine isBreak (f b)) : m (l.flatMap f) = (l.map fun b => m (f b)).sum := by
  induction l with
  | nil => simpa using hm.nil
  | cons b l ih =>
    rw [List.flatMap_cons, hm.append _ (h b List.mem_cons_self),
      ih fun c hc => h c (List.mem_cons_of_mem _ hc), List.map_cons, List.sum_cons]

lemma flatMap_eq_zero (hm : LineAdditive isBreak m) {f : β → List α} {l : List β}
    (h : ∀ b ∈ l, EndsLine isBreak (f b)) : m (l.flatMap f) = 0 ↔ ∀ b ∈ l, m (f b) = 0 := by
  rw [hm.flatMap h, List.sum_eq_zero_iff]
  simp

end LineAdditive

end Core
