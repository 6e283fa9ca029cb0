import Mathlib.Tactic

/-!
# Quoted text

Text between two quotation marks in which a mark is written twice. A reader that takes two marks for
one comes to the end exactly where the text was closed.
-/

namespace Core

variable {α : Type*} [DecidableEq α] {q c : α} {s t rest : List α}

/-- Write every mark twice. -/
def doubled (q : α) (s : List α) : List α := s.flatMap fun c => if c = q then [q, q] else [c]

/-- The text between two marks. -/
def quotedBy (q : α) (s : List α) : List α := q :: (doubled q s ++ [q])

@[simp] lemma doubled_nil (q : α) : doubled q [] = [] := rfl

@[simp] lemma doubled_cons_self (q : α) (s : List α) :
    doubled q (q :: s) = q :: q :: doubled q s := by
  simp [doubled]

lemma doubled_cons_of_ne (hc : c ≠ q) (s : List α) : doubled q (c :: s) = c :: doubled q s := by
  simp [doubled, hc]

lemma length_le_doubled (q : α) (s : List α) : s.length ≤ (doubled q s).length := by
  induction s with
  | nil => exact le_rfl
  | cons c s ih =>
    by_cases hc : c = q
    · rw [hc, doubled_cons_self, List.length_cons, List.length_cons, List.length_cons]
      omega
    · rw [doubled_cons_of_ne hc, List.length_cons, List.length_cons]
      omega

/-- The inside of a quoted text whose first mark has been read, with single marks again, and what
follows the text. -/
def readQuoted (q : α) : List α → Option (List α × List α)
  | [] => none
  | c :: s =>
    if c = q then
      match s with
      | [] => some ([], [])
      | d :: t => if d = q then (readQuoted q t).map fun p => (q :: p.1, p.2) else some ([], d :: t)
    else (readQuoted q s).map fun p => (c :: p.1, p.2)

lemma readQuoted_double (q : α) (s : List α) :
    readQuoted q (q :: q :: s) = (readQuoted q s).map fun p => (q :: p.1, p.2) := by
  rw [readQuoted, if_pos rfl]
  exact if_pos rfl

lemma readQuoted_of_ne (hc : c ≠ q) (s : List α) :
    readQuoted q (c :: s) = (readQuoted q s).map fun p => (c :: p.1, p.2) := by
  cases s with
  | nil => exact if_neg hc
  | cons d s => rw [readQuoted, if_neg hc]

lemma readQuoted_close (h : rest.head? ≠ some q) : readQuoted q (q :: rest) = some ([], rest) := by
  cases rest with
  | nil => exact if_pos rfl
  | cons d rest =>
    rw [readQuoted, if_pos rfl]
    exact if_neg fun hd => h (congrArg some hd)

/-- The reader comes back to the text, and leaves what follows. -/
theorem readQuoted_doubled (h : rest.head? ≠ some q) (s : List α) :
    readQuoted q (doubled q s ++ q :: rest) = some (s, rest) := by
  induction s with
  | nil => exact readQuoted_close h
  | cons c s ih =>
    by_cases hc : c = q
    · rw [hc, doubled_cons_self, List.cons_append, List.cons_append, readQuoted_double, ih]
      rfl
    · rw [doubled_cons_of_ne hc, List.cons_append, readQuoted_of_ne hc, ih]
      rfl

theorem quotedBy_injective (q : α) : Function.Injective (quotedBy q) := by
  intro s t h
  have hread := congrArg (readQuoted q) (List.cons.inj h).2
  rw [readQuoted_doubled (by simp), readQuoted_doubled (by simp)] at hread
  exact (Prod.mk.inj (Option.some.inj hread)).1

/-! ### Texts with several marks -/

variable {marks : List α}

/-- The mark that is open behind `c`. -/
def markAfter (marks : List α) (mark : Option α) (c : α) : Option α :=
  match mark with
  | some q => if c = q then none else some q
  | none => if c ∈ marks then some c else none

/-- Text in which every quoted text is closed. -/
inductive Closed (marks : List α) : List α → Prop
  | nil : Closed marks []
  | plain {c : α} {s : List α} : c ∉ marks → Closed marks s → Closed marks (c :: s)
  | quoted {q : α} {s : List α} (b : List α) :
    q ∈ marks → Closed marks s → Closed marks (quotedBy q b ++ s)

/-- In `text`, the occurrence of `pat` behind `pre` lies inside a quoted text. -/
def InQuotes (marks pat text pre : List α) : Prop :=
  ∃ q ∈ marks, ∃ a x y b, Closed marks a ∧ text = a ++ quotedBy q (x ++ pat ++ y) ++ b ∧
    pre = a ++ q :: doubled q x

lemma Closed.of_forall (h : ∀ c ∈ s, c ∉ marks) : Closed marks s := by
  induction s with
  | nil => exact .nil
  | cons c s ih =>
    obtain ⟨hc, hs⟩ := List.forall_mem_cons.mp h
    exact .plain hc (ih hs)

/-- Behind the first mark and any inside, the mark is open. -/
lemma foldl_markAfter_doubled (hq : q ∈ marks) (s : List α) :
    (doubled q s).foldl (markAfter marks) (some q) = some q := by
  induction s with
  | nil => rfl
  | cons c s ih =>
    by_cases hc : c = q
    · have hclose : markAfter marks (some q) q = none := if_pos rfl
      have hopen : markAfter marks none q = some q := if_pos hq
      rw [hc, doubled_cons_self, List.foldl_cons, List.foldl_cons, hclose, hopen, ih]
    · have hstay : markAfter marks (some q) c = some q := if_neg hc
      rw [doubled_cons_of_ne hc, List.foldl_cons, hstay, ih]

lemma foldl_markAfter_open (hq : q ∈ marks) (s : List α) :
    (q :: doubled q s).foldl (markAfter marks) none = some q := by
  have hopen : markAfter marks none q = some q := if_pos hq
  rw [List.foldl_cons, hopen, foldl_markAfter_doubled hq]

/-- Behind a closed text no mark is open. -/
lemma Closed.foldl_markAfter (h : Closed marks s) : s.foldl (markAfter marks) none = none := by
  induction h with
  | nil => rfl
  | plain hc _ ih =>
    have hstay : markAfter marks none _ = none := if_neg hc
    rw [List.foldl_cons, hstay, ih]
  | @quoted q s b hq _ ih =>
    have hclose : markAfter marks (some q) q = none := if_pos rfl
    rw [quotedBy, ← List.cons_append, List.append_assoc, List.foldl_append,
      foldl_markAfter_open hq, List.singleton_append, List.foldl_cons, hclose, ih]

/-- Behind what comes before an occurrence in quotes, a mark is open. -/
theorem InQuotes.foldl_markAfter {pat text pre : List α} (h : InQuotes marks pat text pre) :
    pre.foldl (markAfter marks) none ≠ none := by
  obtain ⟨q, hq, a, x, -, -, ha, -, rfl⟩ := h
  rw [List.foldl_append, ha.foldl_markAfter, foldl_markAfter_open hq]
  exact Option.some_ne_none q

end Core
