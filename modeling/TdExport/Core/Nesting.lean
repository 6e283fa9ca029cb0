import Mathlib.Tactic

/-!
# Nested text

Brackets that open and close, and the pieces between the separators outside of them. The weight of
an element is the number of brackets it opens, negative when it closes one.
-/

namespace Core

variable {α β : Type*} {w : α → ℤ} {sep : α → Bool} {d : ℤ} {s t p : List α}

/-- From depth `d` on no more is closed than is open, and in the end all is closed. -/
def Nested (w : α → ℤ) : ℤ → List α → Prop
  | d, [] => d = 0
  | d, a :: s => 0 ≤ d + w a ∧ Nested w (d + w a) s

/-- No separator stands outside of the brackets. -/
def NoTop (w : α → ℤ) (sep : α → Bool) : ℤ → List α → Prop
  | _, [] => True
  | d, a :: s => ¬(sep a = true ∧ d = 0) ∧ NoTop w sep (d + w a) s

/-- The pieces between the separators outside of the brackets. -/
def cutTop (w : α → ℤ) (sep : α → Bool) : ℤ → List α → List (List α)
  | _, [] => [[]]
  | d, a :: s =>
    if sep a = true ∧ d = 0 then [] :: cutTop w sep d s
    else (cutTop w sep (d + w a) s).modifyHead (a :: ·)

/-- A piece between two separators. -/
structure Piece (w : α → ℤ) (sep : α → Bool) (d : ℤ) (p : List α) : Prop where
  nested : Nested w d p
  noTop : NoTop w sep d p

instance decidableNested (w : α → ℤ) : (d : ℤ) → (s : List α) → Decidable (Nested w d s)
  | d, [] => inferInstanceAs (Decidable (d = 0))
  | d, a :: s =>
    have := decidableNested w (d + w a) s
    inferInstanceAs (Decidable (0 ≤ d + w a ∧ Nested w (d + w a) s))

/-! ### Text without brackets and separators -/

/-- Neither brackets nor separators. -/
def Plain (w : α → ℤ) (sep : α → Bool) (s : List α) : Prop := ∀ a ∈ s, w a = 0 ∧ sep a = false

lemma plain_nil : Plain w sep [] := by simp [Plain]

lemma plain_cons {a : α} : Plain w sep (a :: s) ↔ (w a = 0 ∧ sep a = false) ∧ Plain w sep s := by
  simp [Plain]

/-- Text without brackets does not change the depth. -/
lemma Plain.nested_append (hs : Plain w sep s) :
    Nested w d (s ++ t) ↔ (s = [] ∨ 0 ≤ d) ∧ Nested w d t := by
  induction s with
  | nil => simp
  | cons a s ih =>
    obtain ⟨⟨ha, -⟩, hs⟩ := plain_cons.mp hs
    rw [List.cons_append, Nested, ha, add_zero, ih hs]
    tauto

lemma Plain.noTop_append (hs : Plain w sep s) : NoTop w sep d (s ++ t) ↔ NoTop w sep d t := by
  induction s with
  | nil => rfl
  | cons a s ih =>
    obtain ⟨⟨ha, hsep⟩, hs⟩ := plain_cons.mp hs
    rw [List.cons_append, NoTop, ha, add_zero, ih hs, hsep]
    simp

lemma Plain.cutTop_append (hs : Plain w sep s) :
    cutTop w sep d (s ++ t) = (cutTop w sep d t).modifyHead (s ++ ·) := by
  induction s with
  | nil => cases h : cutTop w sep d t <;> simp [h]
  | cons a s ih =>
    obtain ⟨⟨ha, hsep⟩, hs⟩ := plain_cons.mp hs
    rw [List.cons_append, cutTop, if_neg (by simp [hsep]), ha, add_zero, ih hs,
      List.modifyHead_modifyHead]
    rfl

lemma Plain.piece (hs : Plain w sep s) : Piece w sep 0 s := by
  constructor
  · simpa [Nested] using (hs.nested_append (d := 0) (t := [])).mpr ⟨.inr le_rfl, rfl⟩
  · simpa using hs.noTop_append.mpr (show NoTop w sep 0 [] from trivial)

lemma Plain.append_piece (hs : Plain w sep s) (ht : Piece w sep 0 t) : Piece w sep 0 (s ++ t) :=
  ⟨hs.nested_append.mpr ⟨.inr le_rfl, ht.nested⟩, hs.noTop_append.mpr ht.noTop⟩

/-- Brackets that open nothing do not close anything either. -/
lemma Nested.weight_eq_zero (h : Nested w 0 s) (hopen : ∀ a ∈ s, w a ≤ 0) : ∀ a ∈ s, w a = 0 := by
  induction s with
  | nil => simp
  | cons a s ih =>
    have ha : w a = 0 := by
      have hle := hopen a List.mem_cons_self
      have hge := h.1
      omega
    have hs : Nested w 0 s := by simpa [ha] using h.2
    rintro b (- | ⟨_, hb⟩)
    · exact ha
    · exact ih hs (fun c hc => hopen c (List.mem_cons_of_mem _ hc)) b hb

lemma NoTop.plain (h : NoTop w sep 0 s) (hw : ∀ a ∈ s, w a = 0) : Plain w sep s := by
  induction s with
  | nil => exact plain_nil
  | cons a s ih =>
    have ha : w a = 0 := hw a List.mem_cons_self
    have hs : NoTop w sep 0 s := by simpa [ha] using h.2
    refine plain_cons.mpr ⟨⟨ha, ?_⟩, ih hs fun b hb => hw b (List.mem_cons_of_mem _ hb)⟩
    simpa using h.1

/-- A piece without an opening bracket has no bracket and no separator. -/
lemma Piece.plain (h : Piece w sep 0 p) (hopen : ∀ a ∈ p, w a ≤ 0) : Plain w sep p :=
  h.noTop.plain (h.nested.weight_eq_zero hopen)

/-- Text without brackets may be taken away from the ends of a piece. -/
lemma Piece.of_append (h : Piece w sep 0 (s ++ p ++ t)) (hs : Plain w sep s) (ht : Plain w sep t) :
    Piece w sep 0 p := by
  have hnested : Nested w 0 (p ++ t) := (hs.nested_append.mp (by simpa using h.nested)).2
  have hnoTop : NoTop w sep 0 (p ++ t) := hs.noTop_append.mp (by simpa using h.noTop)
  clear h
  generalize (0 : ℤ) = d at *
  induction p generalizing d with
  | nil =>
    have hend : Nested w d (t ++ []) := by simpa using hnested
    exact ⟨(ht.nested_append.mp hend).2, trivial⟩
  | cons a p ih =>
    have ih := ih (d + w a) hnested.2 hnoTop.2
    exact ⟨⟨hnested.1, ih.nested⟩, ⟨hnoTop.1, ih.noTop⟩⟩

/-! ### Cutting -/

lemma cutTop_ne_nil (w : α → ℤ) (sep : α → Bool) (d : ℤ) (s : List α) :
    cutTop w sep d s ≠ [] := by
  induction s generalizing d with
  | nil => simp [cutTop]
  | cons a s ih =>
    rw [cutTop]
    split_ifs
    · simp
    · simpa using ih (d + w a)

lemma NoTop.cutTop_eq (h : NoTop w sep d s) : cutTop w sep d s = [s] := by
  induction s generalizing d with
  | nil => rfl
  | cons a s ih =>
    rw [cutTop, if_neg h.1, ih h.2]
    rfl

/-- The first piece is a beginning of the text. -/
lemma prefix_of_cutTop_eq {ps : List (List α)} (h : cutTop w sep d s = p :: ps) : p <+: s := by
  induction s generalizing d p ps with
  | nil =>
    obtain ⟨rfl, -⟩ := List.cons.inj h
    exact List.nil_prefix
  | cons a s ih =>
    rw [cutTop] at h
    split_ifs at h
    · obtain ⟨rfl, -⟩ := List.cons.inj h
      exact List.nil_prefix
    · obtain ⟨q, qs, hcut⟩ := List.exists_cons_of_ne_nil (cutTop_ne_nil w sep (d + w a) s)
      rw [hcut, List.modifyHead_cons] at h
      obtain ⟨rfl, -⟩ := List.cons.inj h
      exact List.cons_prefix_cons.mpr ⟨rfl, ih hcut⟩

/-- Cutting ends the pieces at the separators, with all brackets closed. -/
lemma Nested.cutTop (hsep : ∀ a, sep a = true → w a = 0) (h : Nested w d s) :
    ∃ p ps, cutTop w sep d s = p :: ps ∧ Piece w sep d p ∧ ∀ q ∈ ps, Piece w sep 0 q := by
  induction s generalizing d with
  | nil => exact ⟨[], [], rfl, ⟨h, trivial⟩, by simp⟩
  | cons a s ih =>
    obtain ⟨p, ps, hcut, hp, hps⟩ := ih h.2
    by_cases ha : sep a = true ∧ d = 0
    · obtain ⟨hsa, rfl⟩ := ha
      rw [hsep a hsa, add_zero] at hcut hp
      refine ⟨[], p :: ps, ?_, ⟨rfl, trivial⟩, ?_⟩
      · rw [Core.cutTop, if_pos ⟨hsa, rfl⟩, hcut]
      · rintro q (- | ⟨_, hq⟩)
        · exact hp
        · exact hps q hq
    · refine ⟨a :: p, ps, ?_, ⟨⟨h.1, hp.nested⟩, ⟨ha, hp.noTop⟩⟩, hps⟩
      rw [Core.cutTop, if_neg ha, hcut]
      rfl

lemma Piece.cutTop_append (hp : Piece w sep d p) {a : α} (ha : sep a = true) (s : List α) :
    cutTop w sep d (p ++ a :: s) = p :: cutTop w sep 0 s := by
  induction p generalizing d with
  | nil =>
    obtain rfl : d = 0 := hp.nested
    rw [List.nil_append, Core.cutTop, if_pos ⟨ha, rfl⟩]
  | cons b p ih =>
    rw [List.cons_append, Core.cutTop, if_neg hp.noTop.1, ih ⟨hp.nested.2, hp.noTop.2⟩]
    rfl

/-- Pieces joined by separators are cut apart again. -/
lemma cutTop_intercalate {c : α} (hc : sep c = true) {ps : List (List α)} (hne : ps ≠ [])
    (h : ∀ p ∈ ps, Piece w sep 0 p) : cutTop w sep 0 ([c].intercalate ps) = ps := by
  induction ps with
  | nil => exact absurd rfl hne
  | cons p ps ih =>
    have hp := h p List.mem_cons_self
    cases ps with
    | nil => simpa using hp.noTop.cutTop_eq
    | cons q ps =>
      rw [List.intercalate_cons_cons, List.append_assoc, List.singleton_append,
        hp.cutTop_append hc, ih (by simp) fun r hr => h r (List.mem_cons_of_mem _ hr)]

/-- The pieces make up the text. -/
lemma intercalate_cutTop {c : α} (hc : ∀ a, sep a = true → a = c) (s : List α) :
    [c].intercalate (cutTop w sep d s) = s := by
  induction s generalizing d with
  | nil => simp [cutTop]
  | cons a s ih =>
    rw [cutTop]
    split_ifs with ha
    · obtain ⟨p, ps, hcut⟩ := List.exists_cons_of_ne_nil (cutTop_ne_nil w sep d s)
      have ih := @ih d
      rw [hcut] at ih ⊢
      rw [List.intercalate_cons_cons, ih, hc a ha.1]
      rfl
    · obtain ⟨p, ps, hcut⟩ := List.exists_cons_of_ne_nil (cutTop_ne_nil w sep (d + w a) s)
      have ih := @ih (d + w a)
      rw [hcut] at ih ⊢
      cases ps with
      | nil => simpa using ih
      | cons q ps => simpa [List.intercalate_cons_cons] using ih

/-! ### Texts of larger elements -/

section FlatMap

variable {v : β → ℤ} {vsep : β → Bool} {f : β → List α}

/-- Every element is one of the text with the same meaning, or stands for plain text. -/
def Renders (v : β → ℤ) (vsep : β → Bool) (f : β → List α) (w : α → ℤ) (sep : α → Bool) : Prop :=
  ∀ b, (∃ a, f b = [a] ∧ v b = w a ∧ vsep b = sep a) ∨
    (v b = 0 ∧ vsep b = false ∧ Plain w sep (f b))

/-- The text of the pieces is the pieces of the text. -/
lemma Renders.cutTop_flatMap (h : Renders v vsep f w sep) (l : List β) :
    cutTop w sep d (l.flatMap f) = (cutTop v vsep d l).map (List.flatMap f) := by
  induction l generalizing d with
  | nil => rfl
  | cons b l ih =>
    obtain ⟨a, hb, hw, hsep⟩ | ⟨hw, hsep, hplain⟩ := h b
    · rw [List.flatMap_cons, hb, List.singleton_append, cutTop, cutTop, ih, ih, hw, hsep]
      split_ifs
      · rfl
      · cases cutTop v vsep (d + w a) l with
        | nil => rfl
        | cons p ps => simp [hb]
    · rw [List.flatMap_cons, hplain.cutTop_append, ih, cutTop, hw, hsep, add_zero,
        if_neg (by simp)]
      cases cutTop v vsep d l with
      | nil => rfl
      | cons p ps => simp

lemma Renders.nested_flatMap (h : Renders v vsep f w sep) {l : List β} (hd : 0 ≤ d) :
    Nested w d (l.flatMap f) ↔ Nested v d l := by
  induction l generalizing d with
  | nil => rfl
  | cons b l ih =>
    obtain ⟨a, hb, hw, -⟩ | ⟨hw, -, hplain⟩ := h b
    · rw [List.flatMap_cons, hb, List.singleton_append, Nested, Nested, hw]
      exact and_congr_right fun hd' => ih hd'
    · rw [List.flatMap_cons, hplain.nested_append, ih hd, Nested, hw, add_zero]
      simp [hd]

lemma flatMap_intercalate (f : β → List α) (sep : List β) (ls : List (List β)) :
    (sep.intercalate ls).flatMap f = (sep.flatMap f).intercalate (ls.map (List.flatMap f)) := by
  induction ls with
  | nil => rfl
  | cons l ls ih =>
    cases ls with
    | nil => simp
    | cons l' ls =>
      rw [List.map_cons, List.map_cons, List.intercalate_cons_cons, List.intercalate_cons_cons,
        List.flatMap_append, List.flatMap_append, ih]
      rfl

end FlatMap

/-! ### Leaving elements out -/

section Thins

variable {free : α → Bool} {l l' : List α}

/-- `l'` is `l` without some of the elements that may be left out. -/
inductive Thins (free : α → Bool) : List α → List α → Prop
  | nil : Thins free [] []
  | keep (a) {l l'} : Thins free l l' → Thins free (a :: l) (a :: l')
  | drop {a l l'} : free a = true → Thins free l l' → Thins free (a :: l) l'

lemma Thins.refl (free : α → Bool) (l : List α) : Thins free l l := by
  induction l with
  | nil => exact .nil
  | cons a l ih => exact .keep a ih

/-- What may be left out does not change the depth. -/
lemma Thins.nested (hfree : ∀ a, free a = true → w a = 0) (h : Thins free l l') (hd : 0 ≤ d) :
    Nested w d l ↔ Nested w d l' := by
  induction h generalizing d with
  | nil => rfl
  | keep a _ ih => exact and_congr_right fun hd' => ih hd'
  | drop ha _ ih =>
    rw [Nested, hfree _ ha, add_zero, ih hd]
    simp [hd]

/-- All that may be left out is left out. -/
lemma thins_filter (free : α → Bool) (l : List α) : Thins free l (l.filter fun a => !free a) := by
  induction l with
  | nil => exact .nil
  | cons a l ih =>
    cases ha : free a with
    | true => simpa [ha] using ih.drop ha
    | false => simpa [ha] using ih.keep a

lemma Thins.eq_filter (h : Thins free l l') (hfree : ∀ a ∈ l', free a = false) :
    l' = l.filter fun a => !free a := by
  induction h with
  | nil => rfl
  | keep a _ ih =>
    have ha := hfree a List.mem_cons_self
    have ih := ih fun b hb => hfree b (List.mem_cons_of_mem _ hb)
    rw [List.filter_cons_of_pos (by simp [ha]), ← ih]
  | drop ha _ ih => rw [List.filter_cons_of_neg (by simp [ha]), ← ih hfree]

/-- Without such elements nothing is left out. -/
lemma Thins.eq_of_forall (h : Thins free l l') (hfree : ∀ a ∈ l, free a = false) : l' = l := by
  induction h with
  | nil => rfl
  | keep a _ ih => rw [ih fun b hb => hfree b (List.mem_cons_of_mem _ hb)]
  | drop ha _ _ =>
    rw [hfree _ List.mem_cons_self] at ha
    cases ha

lemma Thins.append {m m' : List α} (h : Thins free l l') (hm : Thins free m m') :
    Thins free (l ++ m) (l' ++ m') := by
  induction h with
  | nil => exact hm
  | keep a _ ih => exact ih.keep a
  | drop ha _ ih => exact ih.drop ha

lemma forall₂_modifyHead {R : α → α → Prop} {f g : α → α} (h : ∀ {a b}, R a b → R (f a) (g b))
    {l l' : List α} (hl : List.Forall₂ R l l') :
    List.Forall₂ R (l.modifyHead f) (l'.modifyHead g) := by
  cases hl with
  | nil => exact .nil
  | cons hab hl => exact .cons (h hab) hl

/-- Nothing that is kept moves to another piece. -/
lemma Thins.cutTop (hfree : ∀ a, free a = true → w a = 0 ∧ sep a = false) (h : Thins free l l') :
    List.Forall₂ (Thins free) (Core.cutTop w sep d l) (Core.cutTop w sep d l') := by
  induction h generalizing d with
  | nil => exact .cons .nil .nil
  | keep a _ ih =>
    rw [Core.cutTop, Core.cutTop]
    split_ifs
    · exact .cons .nil ih
    · exact forall₂_modifyHead (fun hp => hp.keep a) ih
  | @drop a l l' ha _ ih =>
    obtain ⟨hw, hsep⟩ := hfree a ha
    obtain ⟨q, qs, hcut⟩ := List.exists_cons_of_ne_nil (cutTop_ne_nil w sep d l')
    have hid : (Core.cutTop w sep d l').modifyHead (fun q => q) = Core.cutTop w sep d l' := by
      rw [hcut]
      rfl
    rw [Core.cutTop, if_neg (by simp [hsep]), hw, add_zero, ← hid]
    exact forall₂_modifyHead (fun hp => hp.drop ha) ih

lemma Thins.intercalate (c : α) {ls ls' : List (List α)} (h : List.Forall₂ (Thins free) ls ls') :
    Thins free ([c].intercalate ls) ([c].intercalate ls') := by
  induction h with
  | nil => exact .nil
  | @cons p q ps qs hp hps ih =>
    cases hps with
    | nil => simpa using hp
    | cons hq hqs =>
      rw [List.intercalate_cons_cons, List.intercalate_cons_cons]
      exact (hp.append (.refl free [c])).append ih

end Thins

end Core
