import TdExport.Core.Str

/-!
# Occurrences of a text

What the leftmost, non-overlapping occurrences of `matchIndices` are: each is an occurrence, and an
occurrence that no other can overlap from the left is among them. And where `find` finds the first
occurrence of all.
-/

namespace Core

variable {pat before after done s b : Str}

lemma eq_of_mem_matchesFrom {skip : ℕ} {p : Str × Str} (h : p ∈ matchesFrom pat skip done s) :
    done ++ s = p.1 ++ pat ++ p.2 := by
  induction s generalizing skip done with
  | nil => cases h
  | cons c s ih =>
    cases skip with
    | succ skip =>
      have heq := ih h
      rwa [List.append_assoc] at heq
    | zero =>
      rw [matchesFrom] at h
      split_ifs at h with hpre
      · rcases List.mem_cons.mp h with rfl | h
        · obtain ⟨rest, hrest⟩ := List.isPrefixOf_iff_prefix.mp hpre
          show done ++ c :: s = done ++ pat ++ (c :: s).drop pat.length
          rw [← hrest, List.drop_left, List.append_assoc]
        · have heq := ih h
          rwa [List.append_assoc] at heq
      · have heq := ih h
        rwa [List.append_assoc] at heq

/-- What `matchIndices` returns is an occurrence. -/
theorem eq_of_mem_matchIndices {p : Str × Str} (h : p ∈ matchIndices pat s) :
    s = p.1 ++ pat ++ p.2 :=
  eq_of_mem_matchesFrom h

/-- A text that ends outside the alphabet of `pat` and is longer than nothing is no beginning of
`pat`. -/
lemma length_le_of_prefix {c : Char} (hlast : ∀ d, (c :: b).getLast? = some d → d ∉ pat)
    (hpre : pat <+: c :: b ++ s) : pat.length ≤ (c :: b).length := by
  by_contra hlong
  have hb : c :: b <+: pat :=
    List.prefix_of_prefix_length_le (List.prefix_append _ _) hpre (by omega)
  have hmem := List.getLast_mem (List.cons_ne_nil c b)
  exact hlast _ (List.getLast?_eq_some_getLast (List.cons_ne_nil c b)) (hb.subset hmem)

lemma mem_matchesFrom {skip : ℕ} (hpat : pat ≠ []) (hskip : skip ≤ b.length)
    (hlast : ∀ d, b.getLast? = some d → d ∉ pat) :
    (done ++ b, after) ∈ matchesFrom pat skip done (b ++ (pat ++ after)) := by
  induction b generalizing skip done with
  | nil =>
    obtain ⟨c, p, rfl⟩ := List.exists_cons_of_ne_nil hpat
    have hprefix : (c :: p).isPrefixOf (c :: (p ++ after)) = true :=
      List.isPrefixOf_iff_prefix.mpr (List.prefix_append (c :: p) after)
    have hdrop : (c :: (p ++ after)).drop (c :: p).length = after := List.drop_left
    rw [Nat.le_zero.mp hskip, List.nil_append, List.cons_append, matchesFrom, if_pos hprefix,
      hdrop, List.append_nil]
    exact List.mem_cons_self
  | cons c b ih =>
    have hlast' : ∀ d, b.getLast? = some d → d ∉ pat := by
      intro d hd
      apply hlast d
      rw [List.getLast?_cons, hd]
      rfl
    have hnext : ∀ {k}, k ≤ b.length →
        (done ++ c :: b, after) ∈ matchesFrom pat k (done ++ [c]) (b ++ (pat ++ after)) := by
      intro k hk
      have := @ih (done ++ [c]) k hk hlast'
      rwa [List.append_assoc] at this
    cases skip with
    | succ skip => exact hnext (Nat.le_of_succ_le_succ hskip)
    | zero =>
      rw [List.cons_append, matchesFrom]
      split_ifs with hpre
      · have hlen := length_le_of_prefix hlast (List.isPrefixOf_iff_prefix.mp hpre)
        rw [List.length_cons] at hlen
        exact List.mem_cons_of_mem _ (hnext (by omega))
      · exact hnext (Nat.zero_le _)

/-- An occurrence is found when the character before it is foreign to the text that is looked for:
no earlier occurrence reaches into it. -/
theorem mem_matchIndices (hpat : pat ≠ []) (hlast : ∀ d, before.getLast? = some d → d ∉ pat) :
    (before, after) ∈ matchIndices pat (before ++ (pat ++ after)) :=
  mem_matchesFrom hpat (Nat.zero_le _) hlast

/-! ### The first occurrence -/

variable {t : Str} {i : ℕ}

lemma find_of_prefix (h : pat <+: s) : find pat s = some 0 := by
  cases s with
  | nil => simp [find, List.prefix_nil.mp h]
  | cons c s => rw [find, if_pos (List.isPrefixOf_iff_prefix.mpr h)]

/-- The first occurrence is not behind any other. -/
lemma exists_find_le (h : pat <+: s.drop i) : ∃ j ≤ i, find pat s = some j := by
  induction s generalizing i with
  | nil => exact ⟨0, Nat.zero_le i, find_of_prefix (by simpa using h)⟩
  | cons c s ih =>
    by_cases hpre : pat <+: c :: s
    · exact ⟨0, Nat.zero_le i, find_of_prefix hpre⟩
    · cases i with
      | zero => exact absurd h hpre
      | succ i =>
        obtain ⟨j, hj, hfind⟩ := ih (i := i) h
        refine ⟨j + 1, Nat.succ_le_succ hj, ?_⟩
        rw [find, if_neg (List.isPrefixOf_iff_prefix.not.mpr hpre), hfind]
        rfl

lemma add_length_le_of_find (h : find pat s = some i) : i + pat.length ≤ s.length := by
  induction s generalizing i with
  | nil =>
    rw [find] at h
    split_ifs at h with hpat
    obtain rfl := Option.some.inj h
    simp [List.isEmpty_iff.mp hpat]
  | cons c s ih =>
    rw [find] at h
    split_ifs at h with hpre
    · obtain rfl := Option.some.inj h
      simpa using (List.isPrefixOf_iff_prefix.mp hpre).length_le
    · obtain ⟨j, hj, rfl⟩ := Option.map_eq_some_iff.mp h
      have hle := ih hj
      rw [List.length_cons]
      omega

/-- What follows does not bring an occurrence before the first one. -/
lemma find_append_of_some (h : find pat s = some i) (t : Str) : find pat (s ++ t) = some i := by
  induction s generalizing i with
  | nil =>
    rw [find] at h
    split_ifs at h with hpat
    rw [← h, List.isEmpty_iff.mp hpat]
    exact find_of_prefix List.nil_prefix
  | cons c s ih =>
    rw [find] at h
    split_ifs at h with hpre
    · rw [← h]
      exact find_of_prefix ((List.isPrefixOf_iff_prefix.mp hpre).trans (List.prefix_append _ t))
    · obtain ⟨j, hj, hi⟩ := Option.map_eq_some_iff.mp h
      -- an occurrence at the very start would have to be longer than the one that was found
      have hstart : ¬ pat.isPrefixOf (c :: (s ++ t)) = true := by
        intro hlong
        have hlen : pat.length ≤ (c :: s).length :=
          (Nat.le_of_add_left_le (add_length_le_of_find hj)).trans (Nat.le_succ _)
        exact hpre (List.isPrefixOf_iff_prefix.mpr (List.prefix_of_prefix_length_le
          (List.isPrefixOf_iff_prefix.mp hlong) (List.prefix_append (c :: s) t) hlen))
      rw [List.cons_append, find, if_neg hstart, ih hj, ← hi]
      rfl

/-- A text whose last character stands nowhere else in it does not overlap itself. -/
lemma length_le_of_prefix_append {p : Str} {c : Char} (hc : c ∉ p) (hs : s ≠ [])
    (h : p ++ [c] <+: s ++ (p ++ [c] ++ t)) : (p ++ [c]).length ≤ s.length := by
  by_contra hlong
  obtain ⟨r, hr⟩ : s <+: p ++ [c] :=
    List.prefix_of_prefix_length_le (List.prefix_append _ _) h (by omega)
  have hne : r ≠ [] := by
    rintro rfl
    rw [List.append_nil] at hr
    simp [hr] at hlong
  have hrest : r <+: p ++ [c] ++ t := by
    apply (List.prefix_append_right_inj s).mp
    rwa [hr]
  have hlen : r.length ≤ p.length := by
    have hsum := congrArg List.length hr
    have hpos := List.length_pos_iff.mpr hs
    simp only [List.length_append, List.length_singleton] at hsum
    omega
  have hbefore : r <+: p :=
    List.prefix_of_prefix_length_le hrest (by simp) hlen
  have hlast : r.getLast? = some c := by
    rw [← List.getLast?_append_of_ne_nil s hne, hr]
    simp
  exact hc (hbefore.subset (List.mem_of_getLast? hlast))

/-- Without an earlier occurrence the first one is where it stands. -/
lemma find_append_of_none {p : Str} {c : Char} (hc : c ∉ p) (h : find (p ++ [c]) s = none)
    (t : Str) : find (p ++ [c]) (s ++ (p ++ [c] ++ t)) = some s.length := by
  induction s with
  | nil => exact find_of_prefix (List.prefix_append _ t)
  | cons d s ih =>
    rw [find] at h
    split_ifs at h with hpre
    have hstart : ¬ (p ++ [c]).isPrefixOf (d :: (s ++ (p ++ [c] ++ t))) = true := by
      intro hlong
      have hlong := List.isPrefixOf_iff_prefix.mp hlong
      have hlen := length_le_of_prefix_append (s := d :: s) hc (by simp) hlong
      exact hpre (List.isPrefixOf_iff_prefix.mpr
        (List.prefix_of_prefix_length_le hlong (List.prefix_append (d :: s) _) hlen))
    rw [List.cons_append, find, if_neg hstart, ih (by simpa using h)]
    rfl

/-! ### Cutting at the first occurrence -/

lemma splitOnce_append_of_some {left right : Str} (h : splitOnce pat s = some (left, right))
    (t : Str) : splitOnce pat (s ++ t) = some (left, right ++ t) := by
  obtain ⟨i, hfind, heq⟩ := Option.map_eq_some_iff.mp h
  obtain ⟨rfl, rfl⟩ := Prod.mk.inj heq
  have hle := add_length_le_of_find hfind
  rw [splitOnce, find_append_of_some hfind, Option.map_some, List.drop_append_of_le_length hle,
    List.take_append_of_le_length (by omega)]

lemma splitOnce_append_of_none {p : Str} {c : Char} (hc : c ∉ p)
    (h : splitOnce (p ++ [c]) s = none) (t : Str) :
    splitOnce (p ++ [c]) (s ++ (p ++ [c] ++ t)) = some (s, t) := by
  have hfind := find_append_of_none hc (Option.map_eq_none_iff.mp h) t
  rw [splitOnce, hfind, Option.map_some, List.take_left, ← List.append_assoc,
    ← List.length_append, List.drop_left]

lemma splitOnce_char_cons {c d : Char} (hd : d ≠ c) (s : Str) :
    splitOnce [c] (d :: s) = (splitOnce [c] s).map fun p => (d :: p.1, p.2) := by
  rw [splitOnce, splitOnce, find, if_neg (by simpa using Ne.symm hd)]
  cases find [c] s with
  | none => rfl
  | some i => rfl

/-- A text is split at the first occurrence of a character. -/
lemma splitOnce_of_not_mem {c : Char} (hc : c ∉ s) (t : Str) :
    splitOnce [c] (s ++ c :: t) = some (s, t) := by
  induction s with
  | nil =>
    have hfind : find [c] (c :: t) = some 0 := find_of_prefix (List.prefix_append [c] t)
    rw [List.nil_append, splitOnce, hfind]
    rfl
  | cons d s ih =>
    obtain ⟨hd, hs⟩ := List.ne_and_not_mem_of_not_mem_cons hc
    rw [List.cons_append, splitOnce_char_cons hd.symm, ih hs]
    rfl

/-- The text before the first occurrence of a character and the text behind it. -/
lemma splitOnce_char (c : Char) (s : Str) :
    (splitOnce [c] s).getD (s, []) =
      (s.takeWhile (· ≠ c), (s.dropWhile (· ≠ c)).drop 1) := by
  induction s with
  | nil => rfl
  | cons d s ih =>
    by_cases hd : d = c
    · rw [hd, ← List.nil_append (c :: s), splitOnce_of_not_mem List.not_mem_nil]
      simp
    · obtain ⟨hleft, hright⟩ := Prod.mk.inj ih
      rw [splitOnce_char_cons hd, List.takeWhile_cons_of_pos (by simpa using hd),
        List.dropWhile_cons_of_pos (by simpa using hd), ← hleft, ← hright]
      cases splitOnce [c] s <;> rfl

lemma suffix_of_splitOnce {left right : Str} (h : splitOnce pat s = some (left, right)) :
    right <:+ s := by
  obtain ⟨i, -, heq⟩ := Option.map_eq_some_iff.mp h
  obtain ⟨-, rfl⟩ := Prod.mk.inj heq
  exact List.drop_suffix _ _

end Core
