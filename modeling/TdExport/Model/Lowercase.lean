import TdExport.Model.Basic

/-!
# Lower case

`str::to_lowercase`, with the capital sigma that is lowered to another letter at the end of a word.
-/

namespace TdExport

open Core

/-- The Unicode tables, with those that tell where a word ends. -/
structure CaseTables extends Unicode where
  isCased : Char → Bool
  isCaseIgnorable : Char → Bool

namespace CaseTables

/-- The tables that know the ASCII characters only. -/
def asciiOnly : CaseTables where
  toUnicode := .asciiOnly
  isCased := Char.isAlpha
  isCaseIgnorable c := ".:^".toList.contains c || c == '\'' || c.toNat == 0x60

variable (u : CaseTables)

/-- Past the characters that do not count for case, `s` goes on with a cased one. -/
def casedNext (s : Str) : Bool := (s.dropWhile u.isCaseIgnorable).head?.any u.isCased

/-- The lower case of a capital sigma between `before`, read backwards, and `after`. -/
def lowerSigma (before after : Str) : Char :=
  if u.casedNext before && !u.casedNext after then 'ς' else 'σ'

/-- The lower case of a text that follows `before`, which is read backwards. -/
def lowerFrom : Str → Str → Str
  | _, [] => []
  | before, c :: s =>
    (if c = 'Σ' then [u.lowerSigma before s] else u.lower c) ++ lowerFrom (c :: before) s

/-- `str::to_lowercase` -/
def toLowercase (s : Str) : Str := u.lowerFrom [] s

variable {u} in
lemma lowerFrom_cons {before s : Str} {c : Char} (hc : c.toNat < 128 ∧ c.toLower = c) :
    u.lowerFrom before (c :: s) = c :: u.lowerFrom (c :: before) s := by
  have hsigma : c ≠ 'Σ' := by
    rintro rfl
    exact absurd hc.1 (by decide)
  have hcons : u.lowerFrom before (c :: s) =
      (if c = 'Σ' then [u.lowerSigma before s] else u.lower c) ++ u.lowerFrom (c :: before) s := rfl
  rw [hcons, if_neg hsigma, u.lower_ascii c hc.1, hc.2, List.singleton_append]

lemma lowerFrom_eq_self (before : Str) {s : Str} (hs : ∀ c ∈ s, c.toNat < 128 ∧ c.toLower = c) :
    u.lowerFrom before s = s := by
  induction s generalizing before with
  | nil => rfl
  | cons c s ih =>
    rw [lowerFrom_cons (hs c List.mem_cons_self), ih _ fun d hd => hs d (List.mem_cons_of_mem _ hd)]

/-- ASCII characters that are no capitals stay as they are, whatever stands before them. -/
lemma exists_toLowercase_append (s : Str) {t : Str}
    (ht : ∀ c ∈ t, c.toNat < 128 ∧ c.toLower = c) : ∃ s', u.toLowercase (s ++ t) = s' ++ t := by
  rw [toLowercase]
  generalize ([] : Str) = before
  induction s generalizing before with
  | nil => exact ⟨[], u.lowerFrom_eq_self before ht⟩
  | cons c s ih =>
    obtain ⟨s', hs'⟩ := ih (c :: before)
    rw [List.cons_append, lowerFrom, hs', ← List.append_assoc]
    exact ⟨_, rfl⟩

/-! ### Where a word ends -/

variable {u} {before before' s t x : Str} {c : Char}

/-- What stands before a text counts only by its case. -/
lemma lowerFrom_congr (h : ∀ r, u.casedNext (r ++ before) = u.casedNext (r ++ before')) :
    u.lowerFrom before s = u.lowerFrom before' s := by
  induction s generalizing before before' with
  | nil => rfl
  | cons c s ih =>
    have hcons : ∀ r, u.casedNext (r ++ c :: before) = u.casedNext (r ++ c :: before') := by
      intro r
      simpa using h (r ++ [c])
    have hsigma : u.lowerSigma before s = u.lowerSigma before' s := by
      rw [lowerSigma, lowerSigma, show u.casedNext before = u.casedNext before' from h []]
    rw [lowerFrom, lowerFrom, hsigma, ih hcons]

variable (before before' s) in
/-- The two small sigmas are one character each. -/
lemma length_lowerFrom : (u.lowerFrom before s).length = (u.lowerFrom before' s).length := by
  induction s generalizing before before' with
  | nil => rfl
  | cons c s ih =>
    rw [lowerFrom, lowerFrom, List.length_append, List.length_append,
      ih (c :: before) (c :: before')]
    split_ifs <;> rfl

/-- Text without capitals is lowered by itself. -/
lemma lowerFrom_append (hs : ∀ c ∈ s, c.toNat < 128 ∧ c.toLower = c) :
    u.lowerFrom before (s ++ t) = s ++ u.lowerFrom (s.reverse ++ before) t := by
  induction s generalizing before with
  | nil => rfl
  | cons c s ih =>
    rw [List.cons_append, lowerFrom_cons (hs c List.mem_cons_self),
      ih fun d hd => hs d (List.mem_cons_of_mem _ hd)]
    simp

end CaseTables

/-- The characters around a number and around the source in a file name. -/
def marks : Str := ['~', '(', ')']

lemma forall_mem_marks {p : Char → Prop} : (∀ c ∈ marks, p c) ↔ p '~' ∧ p '(' ∧ p ')' := by
  simp [marks]

/-- The tables, with what they say of the marks in a file name: none has case, and none is skipped
where a word ends. -/
structure FileTables extends CaseTables where
  isCased_mark : ∀ c ∈ marks, isCased c = false
  isCaseIgnorable_mark : ∀ c ∈ marks, isCaseIgnorable c = false

namespace FileTables

/-- The tables that know the ASCII characters only. -/
def asciiOnly : FileTables where
  toCaseTables := .asciiOnly
  isCased_mark := forall_mem_marks.mpr (by decide)
  isCaseIgnorable_mark := forall_mem_marks.mpr (by decide)

variable {u : FileTables} {before s s' t x : Str} {c : Char}

lemma ascii_of_mem_marks (hc : c ∈ marks) : c.toNat < 128 ∧ c.toLower = c := by
  have h : ∀ c ∈ marks, c.toNat < 128 ∧ c.toLower = c := forall_mem_marks.mpr (by decide)
  exact h c hc

/-- What follows a mark does not count. -/
lemma casedNext_append_cons (hc : c ∈ marks) :
    u.casedNext (s ++ c :: t) = u.casedNext s := by
  induction s with
  | nil =>
    have hskip := u.isCaseIgnorable_mark c hc
    have hcased := u.isCased_mark c hc
    simp [CaseTables.casedNext, hskip, hcased]
  | cons d s ih =>
    rw [CaseTables.casedNext, CaseTables.casedNext] at ih ⊢
    rw [List.cons_append, List.dropWhile_cons, List.dropWhile_cons]
    split_ifs
    · exact ih
    · rfl

/-- The texts on both sides of a mark are lowered by themselves. -/
lemma lowerFrom_append_cons (hc : c ∈ marks) :
    u.lowerFrom before (s ++ c :: t) = u.lowerFrom before s ++ c :: u.toLowercase t := by
  induction s generalizing before with
  | nil =>
    have hbefore : u.lowerFrom (c :: before) t = u.toLowercase t := by
      refine CaseTables.lowerFrom_congr fun r => ?_
      rw [casedNext_append_cons hc, List.append_nil]
    rw [List.nil_append, CaseTables.lowerFrom_cons (ascii_of_mem_marks hc), hbefore]
    rfl
  | cons d s ih =>
    have hsigma : u.lowerSigma before (s ++ c :: t) = u.lowerSigma before s := by
      rw [CaseTables.lowerSigma, CaseTables.lowerSigma, casedNext_append_cons hc]
    rw [List.cons_append, CaseTables.lowerFrom, CaseTables.lowerFrom, hsigma, ih,
      List.append_assoc]

lemma toLowercase_append_cons (hc : c ∈ marks) :
    u.toLowercase (s ++ c :: t) = u.toLowercase s ++ c :: u.toLowercase t :=
  lowerFrom_append_cons hc

/-- Behind the last mark there are no capitals. -/
def Guarded (s : Str) : Prop :=
  ∃ t c r, s = t ++ c :: r ∧ c ∈ marks ∧ ∀ d ∈ r, d.toNat < 128 ∧ d.toLower = d

lemma Guarded.append (hs : Guarded s) (ht : ∀ d ∈ t, d.toNat < 128 ∧ d.toLower = d) :
    Guarded (s ++ t) := by
  obtain ⟨t', c, r, rfl, hc, hr⟩ := hs
  refine ⟨t', c, r ++ t, by simp, hc, fun d hd => ?_⟩
  exact (List.mem_append.mp hd).elim (hr d) (ht d)

/-- What follows such a text does not change its lower case. -/
lemma Guarded.exists_toLowercase_append (hs : Guarded s) (x : Str) :
    ∃ before, u.toLowercase (s ++ x) = u.toLowercase s ++ u.lowerFrom before x := by
  obtain ⟨t, c, r, rfl, hc, hr⟩ := hs
  refine ⟨r.reverse, ?_⟩
  have hlower : ∀ y, u.toLowercase (r ++ y) = r ++ u.lowerFrom r.reverse y := by
    intro y
    rw [CaseTables.toLowercase, CaseTables.lowerFrom_append hr, List.append_nil]
  have hself : u.toLowercase r = r := u.lowerFrom_eq_self [] hr
  rw [List.append_assoc, List.cons_append, toLowercase_append_cons hc, toLowercase_append_cons hc,
    hlower, hself, List.append_assoc, List.cons_append]

lemma Guarded.toLowercase_append (hs : Guarded s) (hx : ∀ d ∈ x, d.toNat < 128 ∧ d.toLower = d) :
    u.toLowercase (s ++ x) = u.toLowercase s ++ x := by
  obtain ⟨before, h⟩ := hs.exists_toLowercase_append (u := u) x
  rw [h, u.lowerFrom_eq_self before hx]

lemma Guarded.toLowercase_eq (hs : Guarded s) (hs' : Guarded s')
    (h : u.toLowercase (s ++ x) = u.toLowercase (s' ++ x)) :
    u.toLowercase s = u.toLowercase s' := by
  obtain ⟨b, hb⟩ := hs.exists_toLowercase_append (u := u) x
  obtain ⟨b', hb'⟩ := hs'.exists_toLowercase_append (u := u) x
  rw [hb, hb'] at h
  exact (List.append_inj' h (CaseTables.length_lowerFrom b b' x)).1

end FileTables

end TdExport
