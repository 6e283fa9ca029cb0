import TdExport.Export.Sql.Basic

/-!
# The semicolon at the end

`Terminator` of `export/sql.rs` puts a semicolon behind a statement that has none. It takes no
semicolon away.
-/

namespace TdExport.Sql

open Core

def applySqlTerminator (ddl : Str) (dbType : DbType) : Str :=
  match dbType with
  | .mySql | .postgres => terminate ddl

/-! ### The end of a text -/

/-- The characters that do not count at the end of a statement. -/
def isTail (c : Char) : Bool := isWhitespace c || c == ';'

/-- A text without the white space and the semicolons at its end. -/
def withoutTail (s : Str) : Str := s.rdropWhile isTail

/-- `result` ends in exactly one semicolon, and says what `ddl` says. -/
def TerminatedOnce (ddl result : Str) : Prop :=
  ∃ body, result = body ++ ";" ∧ ¬ ";".toList <:+ body ∧ withoutTail body = withoutTail ddl

variable {s t : Str}

lemma withoutTail_append (s : Str) (h : ∀ c ∈ t, isTail c = true) :
    withoutTail (s ++ t) = withoutTail s :=
  rdropWhile_append_of_forall h s

lemma withoutTail_append_white (s : Str) (h : ∀ c ∈ t, isWhitespace c = true) :
    withoutTail (s ++ t) = withoutTail s :=
  withoutTail_append s fun c hc => by simp [isTail, h c hc]

lemma withoutTail_semicolon (s : Str) : withoutTail (s ++ ";") = withoutTail s :=
  withoutTail_append s (by simp [isTail])

lemma withoutTail_trimEnd (s : Str) : withoutTail (trimEnd s) = withoutTail s := by
  obtain ⟨w, hs, hw⟩ := exists_append_trimEnd s
  conv_rhs => rw [hs, withoutTail_append_white _ hw]

lemma trimEnd_semicolon (s : Str) : trimEnd (s ++ ";") = s ++ ";" := trimEnd_concat (by decide) s

/-- The last character of what is left counts. -/
lemma withoutTail_cases (s : Str) :
    withoutTail s = [] ∨ ∃ r c, withoutTail s = r ++ [c] ∧ isTail c = false :=
  rdropWhile_cases isTail s

lemma trimEnd_withoutTail (s : Str) : trimEnd (withoutTail s) = withoutTail s := by
  rcases withoutTail_cases s with h | ⟨r, c, h, hc⟩
  · rw [h]
    rfl
  · rw [h]
    exact trimEnd_concat (Bool.or_eq_false_iff.mp hc).1 r

lemma not_suffix_withoutTail (s : Str) : ¬ ";".toList <:+ withoutTail s :=
  not_suffix_rdropWhile rfl s

/-! ### One text -/

lemma terminate_eq (ddl : Str) :
    terminate ddl =
      if ";".toList <:+ trimEnd ddl then trimEnd ddl else trimEnd ddl ++ ";" := by
  have hparen : ");".toList <:+ trimEnd ddl → ";".toList <:+ trimEnd ddl :=
    fun h => (List.suffix_append ")".toList ";".toList).trans h
  exact if_congr (or_iff_left_of_imp hparen) rfl rfl

/-- A semicolon is added, or is there already. -/
lemma exists_terminate (ddl : Str) :
    ∃ body, terminate ddl = body ++ ";" ∧ withoutTail body = withoutTail ddl ∧
      (trimEnd ddl = body ++ ";" ∨ trimEnd ddl = body ∧ ¬ ";".toList <:+ body) := by
  rw [terminate_eq]
  by_cases h : ";".toList <:+ trimEnd ddl
  · obtain ⟨body, hbody⟩ := h
    refine ⟨body, ?_, ?_, .inl hbody.symm⟩
    · rw [if_pos ⟨body, hbody⟩, hbody]
    · rw [← withoutTail_semicolon, hbody, withoutTail_trimEnd]
  · exact ⟨trimEnd ddl, if_neg h, withoutTail_trimEnd ddl, .inr ⟨rfl, h⟩⟩

/-- What is terminated stays as it is. -/
theorem terminate_terminate (ddl : Str) : terminate (terminate ddl) = terminate ddl := by
  obtain ⟨body, hbody, -, -⟩ := exists_terminate ddl
  rw [hbody, terminate_eq, trimEnd_semicolon, if_pos (List.suffix_append _ _)]

lemma doubled_suffix_iff (body : Str) :
    ";;".toList <:+ body ++ ";".toList ↔ ";".toList <:+ body := by
  constructor
  · rintro ⟨r, hr⟩
    exact ⟨r, List.append_cancel_right ((List.append_assoc r _ _).trans hr)⟩
  · rintro ⟨r, rfl⟩
    exact ⟨r, (List.append_assoc r ";".toList ";".toList).symm⟩

/-- The result ends in exactly one semicolon unless the statement has more of them at its end. -/
lemma terminatedOnce_terminate_iff (ddl : Str) :
    TerminatedOnce ddl (terminate ddl) ↔ ¬ ";;".toList <:+ trimEnd ddl := by
  obtain ⟨body, hbody, htext, htrim⟩ := exists_terminate ddl
  have hone : TerminatedOnce ddl (terminate ddl) ↔ ¬ ";".toList <:+ body := by
    constructor
    · rintro ⟨body', hbody', hone, -⟩
      rwa [← List.append_cancel_right (hbody.symm.trans hbody')] at hone
    · exact fun h => ⟨body, hbody, h, htext⟩
  rw [hone]
  rcases htrim with htrim | ⟨htrim, hend⟩
  · rw [htrim, doubled_suffix_iff]
  · rw [htrim]
    refine iff_of_true hend fun h => hend ?_
    exact (List.suffix_append ";".toList ";".toList).trans h

/-- Behind what counts the statement has white space, or one semicolon and white space. -/
def OneSemicolon (ddl : Str) : Prop :=
  ∃ w, (∀ c ∈ w, isWhitespace c = true) ∧
    (ddl = withoutTail ddl ++ w ∨ ddl = withoutTail ddl ++ ';' :: w)

/-- The result is what counts of the statement and a semicolon. -/
lemma terminate_eq_withoutTail_iff (ddl : Str) :
    terminate ddl = withoutTail ddl ++ ";" ↔ OneSemicolon ddl := by
  obtain ⟨w, hddl, hw⟩ := exists_append_trimEnd ddl
  obtain ⟨body, hbody, htext, htrim⟩ := exists_terminate ddl
  constructor
  · intro h
    have heq : body = withoutTail ddl := List.append_cancel_right (hbody.symm.trans h)
    refine ⟨w, hw, ?_⟩
    rcases htrim with htrim | ⟨htrim, -⟩
    · rw [htrim, heq, List.append_assoc] at hddl
      exact .inr hddl
    · rw [htrim, heq] at hddl
      exact .inl hddl
  · rintro ⟨w', hw', h | h⟩
    · have htrim' : trimEnd ddl = withoutTail ddl := by
        conv_lhs => rw [h, trimEnd, rdropWhile_append_of_forall hw']
        exact trimEnd_withoutTail ddl
      rw [terminate_eq, htrim', if_neg (not_suffix_withoutTail ddl)]
    · have htrim' : trimEnd ddl = withoutTail ddl ++ ";" := by
        conv_lhs => rw [h, List.append_cons, trimEnd, rdropWhile_append_of_forall hw']
        exact trimEnd_semicolon _
      rw [terminate_eq, htrim', if_pos (List.suffix_append _ _)]

/-! ### A text that ends a line -/

/-- The last character counts. -/
def EndsBlack (s : Str) : Prop := ∃ c, s.getLast? = some c ∧ isTail c = false

/-- Behind white space, the text ends in `last`, a semicolon and a line break. -/
def LineEnds (last text : Str) : Prop :=
  ∃ pre w, isWhitespace w = true ∧ text = pre ++ w :: last ++ ";\n"

lemma withoutTail_eq_self_iff (pre : Str) {w : Char} (hw : isWhitespace w = true) (last : Str) :
    withoutTail (pre ++ w :: last) = pre ++ w :: last ↔ EndsBlack last := by
  have hself : ∀ r c, withoutTail (r ++ [c]) = r ++ [c] ↔ isTail c = false := by
    intro r c
    rw [withoutTail, List.rdropWhile_eq_self_iff]
    simp
  rcases List.eq_nil_or_concat' last with rfl | ⟨r, c, rfl⟩
  · rw [hself]
    simp [EndsBlack, isTail, hw]
  · rw [← List.cons_append, ← List.append_assoc, hself]
    simp [EndsBlack]

/-- A statement on the next line. -/
lemma LineEnds.append_line {last text : Str} (h : LineEnds last text) (statement : Str) :
    LineEnds statement (text ++ statement ++ ";\n") := by
  obtain ⟨pre, w, -, rfl⟩ := h
  exact ⟨pre ++ w :: last ++ ";", '\n', rfl, by simp⟩

lemma trimEnd_line (s : Str) : trimEnd (s ++ ";\n") = s ++ ";" := by
  have hline : s ++ ";\n".toList = s ++ ";".toList ++ "\n".toList :=
    (List.append_assoc s ";".toList "\n".toList).symm
  rw [hline, trimEnd, rdropWhile_append_of_forall (by simp [isWhitespace])]
  exact trimEnd_semicolon s

lemma LineEnds.terminatedOnce_iff {last text : Str} (h : LineEnds last text) :
    TerminatedOnce text (terminate text) ↔ ¬ ";".toList <:+ last := by
  obtain ⟨pre, w, hw, rfl⟩ := h
  rw [terminatedOnce_terminate_iff, trimEnd_line, doubled_suffix_iff, not_iff_not]
  rcases List.eq_nil_or_concat' last with rfl | ⟨r, c, rfl⟩
  · have hne : ';' ≠ w := by
      rintro rfl
      cases hw
    exact iff_of_false (fun h => hne (List.singleton_suffix_append_singleton_iff.mp h)) (by simp)
  · rw [← List.cons_append, ← List.append_assoc]
    exact List.singleton_suffix_append_singleton_iff.trans
      List.singleton_suffix_append_singleton_iff.symm

lemma LineEnds.terminate_eq_iff {last text : Str} (h : LineEnds last text) :
    terminate text = withoutTail text ++ ";" ↔ EndsBlack last := by
  obtain ⟨pre, w, hw, rfl⟩ := h
  have hterminate : terminate (pre ++ w :: last ++ ";\n") = pre ++ w :: last ++ ";" := by
    rw [terminate_eq, trimEnd_line, if_pos (List.suffix_append _ _)]
  have htext : withoutTail (pre ++ w :: last ++ ";\n") = withoutTail (pre ++ w :: last) :=
    withoutTail_append _ (by simp [isTail, isWhitespace])
  rw [hterminate, htext, List.append_left_inj, eq_comm, withoutTail_eq_self_iff pre hw]

end TdExport.Sql
