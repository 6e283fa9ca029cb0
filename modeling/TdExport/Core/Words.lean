import TdExport.Core.Str

/-!
# Words

The words of a text are its longest pieces without white space.
-/

namespace Core

variable {s t : Str} {ws : List Str}

structure IsWord (s : Str) : Prop where
  ne_nil : s ≠ []
  black : ∀ c ∈ s, isWhitespace c = false

lemma splitWhitespace_append_cons {c : Char} (hc : isWhitespace c = true) (s t : Str) :
    splitWhitespace (s ++ c :: t) = splitWhitespace s ++ splitWhitespace t := by
  rw [splitWhitespace, List.splitOnP_append_cons s t hc, List.filter_append]
  rfl

@[simp] lemma splitWhitespace_nil : splitWhitespace [] = [] := by simp [splitWhitespace]

lemma splitWhitespace_cons_white {c : Char} (hc : isWhitespace c = true) (s : Str) :
    splitWhitespace (c :: s) = splitWhitespace s := by
  simpa using splitWhitespace_append_cons hc [] s

lemma splitWhitespace_white (h : ∀ c ∈ s, isWhitespace c = true) : splitWhitespace s = [] := by
  induction s with
  | nil => exact splitWhitespace_nil
  | cons c s ih =>
    rw [splitWhitespace_cons_white (h c List.mem_cons_self),
      ih fun d hd => h d (List.mem_cons_of_mem _ hd)]

/-- White space at the end of a text does not matter. -/
lemma splitWhitespace_append_white (s : Str) (h : ∀ c ∈ t, isWhitespace c = true) :
    splitWhitespace (s ++ t) = splitWhitespace s := by
  cases t with
  | nil => rw [List.append_nil]
  | cons c t =>
    rw [splitWhitespace_append_cons (h c List.mem_cons_self),
      splitWhitespace_white fun d hd => h d (List.mem_cons_of_mem _ hd), List.append_nil]

/-- White space at the beginning of a text does not matter. -/
lemma splitWhitespace_white_append (t : Str) (h : ∀ c ∈ s, isWhitespace c = true) :
    splitWhitespace (s ++ t) = splitWhitespace t := by
  induction s with
  | nil => rfl
  | cons c s ih =>
    rw [List.cons_append, splitWhitespace_cons_white (h c List.mem_cons_self),
      ih fun d hd => h d (List.mem_cons_of_mem _ hd)]

/-- Trimming takes white space from both ends. -/
lemma exists_append_trim (s : Str) :
    ∃ a b, s = a ++ trim s ++ b ∧ (∀ c ∈ a, isWhitespace c = true) ∧
      ∀ c ∈ b, isWhitespace c = true := by
  refine ⟨s.takeWhile isWhitespace, (s.dropWhile isWhitespace).rtakeWhile isWhitespace, ?_, ?_, ?_⟩
  · rw [trim, trimEnd, List.append_assoc, List.rdropWhile_append_rtakeWhile,
      List.takeWhile_append_dropWhile]
  · exact fun c hc => List.mem_takeWhile_imp hc
  · exact fun c hc => List.mem_rtakeWhile_imp hc

/-- Trimming loses nothing but white space. -/
lemma countP_trim {p : Char → Bool} (hp : ∀ c, isWhitespace c = true → p c = false) (s : Str) :
    (trim s).countP p = s.countP p := by
  obtain ⟨a, b, hs, ha, hb⟩ := exists_append_trim s
  have hwhite {t : Str} (ht : ∀ c ∈ t, isWhitespace c = true) : t.countP p = 0 :=
    List.countP_eq_zero.mpr fun c hc => by simp [hp c (ht c hc)]
  conv_rhs => rw [hs]
  rw [List.countP_append, List.countP_append, hwhite ha, hwhite hb, zero_add, add_zero]

lemma count_trim {c : Char} (hc : isWhitespace c = false) (s : Str) :
    (trim s).count c = s.count c := by
  refine countP_trim (fun d hd => beq_eq_false_iff_ne.mpr ?_) s
  rintro rfl
  rw [hc] at hd
  cases hd

lemma mem_trim {c : Char} (hc : isWhitespace c = false) {s : Str} : c ∈ trim s ↔ c ∈ s := by
  rw [← List.count_pos_iff, count_trim hc, List.count_pos_iff]

lemma splitWhitespace_trim (s : Str) : splitWhitespace (trim s) = splitWhitespace s := by
  obtain ⟨a, b, hs, ha, hb⟩ := exists_append_trim s
  conv_rhs => rw [hs]
  rw [splitWhitespace_append_white _ hb, splitWhitespace_white_append _ ha]

lemma IsWord.splitWhitespace_eq (h : IsWord s) : splitWhitespace s = [s] := by
  rw [splitWhitespace, List.splitOnP_eq_singleton h.black, List.filter_cons_of_pos (by
    simpa using h.ne_nil), List.filter_nil]

lemma splitWhitespace_append_of_head? (s : Str) (ht : ∀ c ∈ t.head?, isWhitespace c = true) :
    splitWhitespace (s ++ t) = splitWhitespace s ++ splitWhitespace t := by
  cases t with
  | nil => simp
  | cons c t =>
    have hc : isWhitespace c = true := ht c rfl
    rw [splitWhitespace_append_cons hc, splitWhitespace_cons_white hc]

/-- A word that ends where white space or nothing follows. -/
lemma IsWord.splitWhitespace_append (h : IsWord s) (ht : ∀ c ∈ t.head?, isWhitespace c = true) :
    splitWhitespace (s ++ t) = s :: splitWhitespace t := by
  rw [splitWhitespace_append_of_head? s ht, h.splitWhitespace_eq]
  rfl

lemma mem_of_mem_splitWhitespace {c : Char} (h : t ∈ splitWhitespace s) (hc : c ∈ t) : c ∈ s := by
  replace h := List.mem_of_mem_filter h
  induction s generalizing t with
  | nil =>
    rw [List.splitOnP_nil, List.mem_singleton] at h
    simp [h] at hc
  | cons d s ih =>
    rw [List.splitOnP_cons_eq_if_modifyHead] at h
    split_ifs at h
    · rcases List.mem_cons.mp h with rfl | h
      · cases hc
      · exact List.mem_cons_of_mem _ (ih hc h)
    · cases hcut : s.splitOnP isWhitespace with
      | nil => exact absurd hcut (List.splitOnP_ne_nil _ s)
      | cons u us =>
        rw [hcut] at h ih
        rcases List.mem_cons.mp h with rfl | h
        · exact (List.mem_cons.mp hc).elim (fun heq => heq ▸ List.mem_cons_self)
            fun hc => List.mem_cons_of_mem _ (ih hc List.mem_cons_self)
        · exact List.mem_cons_of_mem _ (ih hc (List.mem_cons_of_mem _ h))

/-- The words have all characters that are not white space. -/
lemma sum_count_splitWhitespace {c : Char} (hc : isWhitespace c = false) (s : Str) :
    ((splitWhitespace s).map (List.count c)).sum = s.count c := by
  have hfilter (pieces : List Str) :
      ((pieces.filter (· ≠ [])).map (List.count c)).sum = (pieces.map (List.count c)).sum := by
    induction pieces with
    | nil => rfl
    | cons p pieces ih =>
      rw [List.map_cons, List.sum_cons, ← ih]
      by_cases hp : p = []
      · simp [hp]
      · simp [hp]
  rw [splitWhitespace, hfilter]
  induction s with
  | nil => rfl
  | cons d s ih =>
    rw [List.splitOnP_cons_eq_if_modifyHead]
    split_ifs with hd
    · have hne : d ≠ c := by
        rintro rfl
        simp [hd] at hc
      rw [List.map_cons, List.sum_cons, ih, List.count_nil, zero_add, List.count_cons_of_ne hne]
    · rw [List.count_cons, ← ih]
      cases hcut : s.splitOnP isWhitespace with
      | nil => exact absurd hcut (List.splitOnP_ne_nil _ s)
      | cons u us =>
        rw [List.modifyHead_cons, List.map_cons, List.map_cons, List.sum_cons, List.sum_cons,
          List.count_cons]
        omega

lemma mem_of_mem_intercalate {c : Char} (h : c ∈ [' '].intercalate ws) :
    c = ' ' ∨ ∃ w ∈ ws, c ∈ w := by
  induction ws with
  | nil => simp at h
  | cons w ws ih =>
    cases ws with
    | nil => exact .inr ⟨w, List.mem_cons_self, by simpa using h⟩
    | cons v ws =>
      rw [List.intercalate_cons_cons, List.append_assoc, List.mem_append] at h
      rcases h with h | h
      · exact .inr ⟨w, List.mem_cons_self, h⟩
      · rcases List.mem_cons.mp h with rfl | h
        · exact .inl rfl
        · refine (ih h).imp_right ?_
          rintro ⟨u, hu, hc⟩
          exact ⟨u, List.mem_cons_of_mem _ hu, hc⟩

lemma isWord_of_mem_splitWhitespace (h : t ∈ splitWhitespace s) : IsWord t := by
  obtain ⟨hmem, hne⟩ := List.mem_filter.mp h
  refine ⟨by simpa using hne, ?_⟩
  clear h hne
  induction s generalizing t with
  | nil =>
    rw [List.splitOnP_nil, List.mem_singleton] at hmem
    simp [hmem]
  | cons c s ih =>
    rw [List.splitOnP_cons_eq_if_modifyHead] at hmem
    split_ifs at hmem with hc
    · rcases List.mem_cons.mp hmem with rfl | hmem
      · simp
      · exact ih hmem
    · cases hcut : s.splitOnP isWhitespace with
      | nil => exact absurd hcut (List.splitOnP_ne_nil _ s)
      | cons u us =>
        rw [hcut] at hmem ih
        rcases List.mem_cons.mp hmem with rfl | hmem
        · rintro d (- | ⟨_, hd⟩)
          · simpa using hc
          · exact ih List.mem_cons_self d hd
        · exact ih (List.mem_cons_of_mem _ hmem)

/-- Words joined by blanks are cut apart again. -/
lemma splitWhitespace_intercalate (h : ∀ w ∈ ws, IsWord w) :
    splitWhitespace ([' '].intercalate ws) = ws := by
  induction ws with
  | nil => exact splitWhitespace_nil
  | cons w ws ih =>
    have hw := h w List.mem_cons_self
    cases ws with
    | nil => simpa using hw.splitWhitespace_eq
    | cons v ws =>
      rw [List.intercalate_cons_cons, List.append_assoc, List.singleton_append,
        splitWhitespace_append_cons (by decide), hw.splitWhitespace_eq,
        ih fun u hu => h u (List.mem_cons_of_mem _ hu)]
      rfl

end Core
