import TdExport.Core.Lines
import TdExport.Core.Runs
import TdExport.Export.Markdown.Basic

/-!
# The code block of a view

The fence around the query of a view is longer than any run of backticks in the query, so that no
line of the query closes the block.
-/

namespace TdExport.Markdown

open Core

/-! ### Fences -/

/-- The number of backticks a line begins with. -/
def fenceLength (line : Str) : ℕ := (line.takeWhile (· = '`')).length

/-- The line closes a block opened with `n` backticks: at most three spaces, at least `n`
backticks, and then only white space. -/
def closesFence (n : ℕ) (line : Str) : Bool :=
  let unindented := line.dropWhile (· = ' ')
  (line.takeWhile (· = ' ')).length ≤ 3 && n ≤ fenceLength unindented &&
    (unindented.dropWhile (· = '`')).all isWhitespace

lemma fenceLength_replicate_append (n : ℕ) {s : Str} (hs : '`' ∉ s.head?) :
    fenceLength (List.replicate n '`' ++ s) = n := by
  have hticks : ∀ c ∈ List.replicate n '`', decide (c = '`') = true := by
    intro c hc
    rw [List.eq_of_mem_replicate hc, decide_eq_true_eq]
  have hrest : s.takeWhile (· = '`') = [] := by
    cases s with
    | nil => rfl
    | cons c s =>
      have hc : c ≠ '`' := fun h => hs (by simp [h])
      simp [hc]
  rw [fenceLength, List.takeWhile_append_of_pos hticks, hrest, List.append_nil,
    List.length_replicate]

/-- A line that closes a block has a run of as many backticks. -/
lemma replicate_infix_of_closesFence {n : ℕ} {line : Str} (h : closesFence n line = true) :
    List.replicate n '`' <:+: line := by
  rw [closesFence, Bool.and_eq_true, Bool.and_eq_true, decide_eq_true_eq, decide_eq_true_eq] at h
  have hticks : (line.dropWhile (· = ' ')).takeWhile (· = '`') =
      List.replicate (fenceLength (line.dropWhile (· = ' '))) '`' := by
    rw [fenceLength, List.eq_replicate_iff]
    exact ⟨rfl, fun c hc => by simpa using List.mem_takeWhile_imp hc⟩
  have hrun : List.replicate n '`' <+: (line.dropWhile (· = ' ')).takeWhile (· = '`') := by
    rw [hticks, List.prefix_replicate_iff, List.length_replicate]
    exact ⟨h.1.2, rfl⟩
  exact (hrun.trans (List.takeWhile_prefix _)).isInfix.trans (List.dropWhile_suffix _).isInfix

lemma closesFence_replicate {n : ℕ} (hn : 0 < n) :
    closesFence n (List.replicate n '`') = true := by
  obtain ⟨m, rfl⟩ := Nat.exists_eq_succ_of_ne_zero hn.ne'
  have hlength := fenceLength_replicate_append (m + 1) (s := []) (by simp)
  rw [List.append_nil] at hlength
  have hspaces : (List.replicate (m + 1) '`').dropWhile (· = ' ') = List.replicate (m + 1) '`' := by
    simp [List.replicate_succ]
  rw [closesFence, hspaces, hlength]
  simp [List.replicate_succ]

/-! ### The longest run -/

/-- Reading on, with a run of `cur` backticks read last. -/
lemma le_longestRunFrom_iff {k maxRun cur : ℕ} {s : Str} (hcur : cur ≤ maxRun) :
    k ≤ longestRunFrom maxRun cur s ↔
      k ≤ maxRun ∨ List.replicate k '`' <:+: List.replicate cur '`' ++ s := by
  fun_induction longestRunFrom maxRun cur s with
  | case1 maxRun cur =>
    rw [List.append_nil, List.infix_replicate_iff, List.length_replicate]
    omega
  | case2 maxRun cur s ih =>
    have hrun : List.replicate (cur + 1) '`' ++ s = List.replicate cur '`' ++ '`' :: s := by
      rw [List.replicate_succ', List.append_assoc, List.singleton_append]
    rw [ih (le_max_right _ _), hrun, le_max_iff]
    have hinfix : k ≤ cur + 1 → List.replicate k '`' <:+: List.replicate cur '`' ++ '`' :: s := by
      intro hk
      rw [← hrun]
      have hpre : List.replicate k '`' <+: List.replicate (cur + 1) '`' := by
        rw [List.prefix_replicate_iff, List.length_replicate]
        exact ⟨hk, rfl⟩
      exact (hpre.trans (List.prefix_append _ _)).isInfix
    tauto
  | case3 maxRun cur c s hc ih =>
    rw [ih (Nat.zero_le _), List.replicate_zero, List.nil_append,
      replicate_infix_append_cons fun h => hc h]
    constructor
    · exact Or.imp id .inr
    · rintro (hk | hk | hk)
      · exact .inl hk
      · exact .inl (hk.trans hcur)
      · exact .inr hk

/-- The longest run is the longest text of backticks anywhere in `s`. -/
lemma le_longestBacktickRun_iff {k : ℕ} {s : Str} :
    k ≤ longestBacktickRun s ↔ List.replicate k '`' <:+: s := by
  rw [longestBacktickRun, le_longestRunFrom_iff le_rfl, List.replicate_zero, List.nil_append]
  refine ⟨fun h => h.elim (fun hk => ?_) id, .inr⟩
  rw [Nat.le_zero.mp hk]
  exact List.nil_infix

/-! ### The block -/

/-- The fence of the block of a query. -/
def viewFence (sql : Str) : Str := List.replicate (max 3 (longestBacktickRun sql + 1)) '`'

/-- The query with its last line ended. -/
def fencedBody (sql : Str) : Str := if sql.getLast? = some '\n' then sql else writeln sql

lemma writeViewFencedSql_eq (sql : Str) :
    writeViewFencedSql sql =
      writeln [] ++ writeln (viewFence sql ++ "sql") ++
        (fencedBody sql ++ writeln (viewFence sql)) :=
  List.append_assoc _ _ _

/-- No run in the query is as long as the fence. -/
lemma fencedBody_eq (sql : Str) :
    ∃ s, fencedBody sql = s ++ ['\n'] ∧
      ¬List.replicate (max 3 (longestBacktickRun sql + 1)) '`' <:+: s := by
  have hlong : ∀ s, s <+: sql →
      ¬List.replicate (max 3 (longestBacktickRun sql + 1)) '`' <:+: s := by
    intro s hs hrun
    have hle := le_longestBacktickRun_iff.mpr (hrun.trans hs.isInfix)
    omega
  rw [fencedBody]
  split_ifs with hlast
  · obtain ⟨s, rfl⟩ := List.getLast?_eq_some_iff.mp hlast
    exact ⟨s, rfl, hlong s (List.prefix_append _ _)⟩
  · exact ⟨sql, rfl, hlong sql List.prefix_rfl⟩

/-- The block is written with `opening` and `closing`, and the query stands between them: after the
line `opening` only the line `closing` closes the block. -/
structure Fenced (isBreak : Char → Bool) (sql opening closing : Str) : Prop where
  written : writeViewFencedSql sql =
    writeln [] ++ writeln opening ++ (fencedBody sql ++ writeln closing)
  opens : IsLine isBreak (writeln []) opening (writeln [] ++ (fencedBody sql ++ writeln closing))
  fence : 3 ≤ fenceLength opening
  last : IsLine isBreak (fencedBody sql) closing (writeln [])
  closes : closesFence (fenceLength opening) closing = true
  only : ∀ before line after, before ++ line ++ after = fencedBody sql ++ writeln closing →
    IsLine isBreak before line after → closesFence (fenceLength opening) line = true →
      before = fencedBody sql ∧ line = closing ∧ after = writeln []

variable {isBreak : Char → Bool}

/-- The query of a view does not leave its block, whether a carriage return ends a line or not. -/
theorem writeViewFencedSql_fenced (hline : isBreak '\n' = true)
    (hbreak : ∀ c, isBreak c = true → c = '\n' ∨ c = '\r') (sql : Str) :
    Fenced isBreak sql (viewFence sql ++ "sql") (viewFence sql) := by
  have hlength : fenceLength (viewFence sql ++ "sql") = max 3 (longestBacktickRun sql + 1) :=
    fenceLength_replicate_append _ (by simp)
  have hpos : 0 < max 3 (longestBacktickRun sql + 1) := by omega
  have hplain : ∀ c ∈ viewFence sql ++ "sql", isBreak c = false := by
    intro c hc
    rw [← Bool.not_eq_true]
    intro hc'
    rcases List.mem_append.mp hc with hfence | htag
    · rw [List.eq_of_mem_replicate hfence] at hc'
      exact absurd (hbreak _ hc') (by decide)
    · have htag : c = 's' ∨ c = 'q' ∨ c = 'l' := by simpa using htag
      rcases htag with rfl | rfl | rfl
      · exact absurd (hbreak _ hc') (by decide)
      · exact absurd (hbreak _ hc') (by decide)
      · exact absurd (hbreak _ hc') (by decide)
  obtain ⟨s, hbody, hs⟩ := fencedBody_eq sql
  refine ⟨writeViewFencedSql_eq sql, ⟨?_, hplain, ?_⟩, ?_, ⟨?_, ?_, ?_⟩, ?_, ?_⟩
  · exact endsLine_concat hline []
  · simp [writeln, hline]
  · rw [hlength]
    exact le_max_left _ _
  · rw [hbody]
    exact endsLine_concat hline s
  · exact fun c hc => hplain c (List.mem_append_left _ hc)
  · simp [writeln, hline]
  · rw [hlength]
    exact closesFence_replicate hpos
  · intro before line after htext hisLine hcloses
    have hmem : '\n' ∉ line := by
      intro h
      rw [hisLine.whole _ h] at hline
      cases hline
    rw [hlength] at hcloses
    rw [hbody, List.append_assoc s] at htext
    rw [hbody]
    exact closing_run hpos hs hmem (replicate_infix_of_closesFence hcloses) htext

/-- A query with a fence of its own. -/
theorem writeViewFencedSql_fenced_ticks :
    Fenced isLineBreak "a\n````\nb" (viewFence "a\n````\nb" ++ "sql") (viewFence "a\n````\nb") :=
  writeViewFencedSql_fenced rfl (fun c hc => by simpa [isLineBreak, or_comm] using hc) "a\n````\nb"

end TdExport.Markdown
