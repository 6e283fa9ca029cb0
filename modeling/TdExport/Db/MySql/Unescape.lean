import TdExport.Core.Escape
import TdExport.Db.MySql.Basic

/-!
# The default of an expression

`information_schema` shows the expression of a default with one level of backslash escapes.
`quote_literal_default` takes away this level, and no other.
-/

namespace TdExport.MySql

open Core

/-! ### The escapes of the catalog -/

/-- How `information_schema` shows one character of an expression. -/
def catalogChar (c : Char) : Str :=
  if c = '\\' then ['\\', '\\']
  else if c = '\'' then ['\\', '\'']
  else if c = '\n' then ['\\', 'n']
  else if c = '\r' then ['\\', 'r']
  else if c = '\x00' then ['\\', '0']
  else if c = '\x1a' then ['\\', 'Z']
  else [c]

/-- How `information_schema` shows an expression. -/
def catalogText (s : Str) : Str := replaceChars catalogChar s

/-! ### One level -/

/-- A pair stands for one character; an escaped backslash does not escape what follows. -/
lemma unescapeOneLevel_pair (c : Char) (s : Str) :
    unescapeOneLevel ('\\' :: c :: s) = unescapeChar c :: unescapeOneLevel s := by
  rw [unescapeOneLevel]

lemma unescapeOneLevel_plain {c : Char} (hc : c ≠ '\\') (s : Str) :
    unescapeOneLevel (c :: s) = c :: unescapeOneLevel s := by
  rw [unescapeOneLevel]
  · exact fun h _ => hc h
  · exact fun _ _ h _ => hc h

/-- One character of the catalog is read back, whatever follows. -/
lemma unescapeOneLevel_catalogChar (c : Char) (s : Str) :
    unescapeOneLevel (catalogChar c ++ s) = c :: unescapeOneLevel s := by
  unfold catalogChar
  split_ifs with h₁ h₂ h₃ h₄ h₅ h₆
  · rw [h₁]
    exact unescapeOneLevel_pair '\\' s
  · rw [h₂]
    exact unescapeOneLevel_pair '\'' s
  · rw [h₃]
    exact unescapeOneLevel_pair 'n' s
  · rw [h₄]
    exact unescapeOneLevel_pair 'r' s
  · rw [h₅]
    exact unescapeOneLevel_pair '0' s
  · rw [h₆]
    exact unescapeOneLevel_pair 'Z' s
  · exact unescapeOneLevel_plain h₁ s

/-- The expression is read back as it is. -/
theorem unescapeOneLevel_catalogText (s : Str) : unescapeOneLevel (catalogText s) = s :=
  decode_flatMap rfl unescapeOneLevel_catalogChar s

/-! ### The default -/

lemma quoteLiteralDefault_of_contains {extra : Str}
    (h : containsStr "DEFAULT_GENERATED" extra = true) (value columnType : Str) :
    quoteLiteralDefault (some value) columnType (some extra) = some (unescapeOneLevel value) := by
  have hextra : (some extra).any (containsStr "DEFAULT_GENERATED") = true := h
  unfold quoteLiteralDefault
  rw [Option.map_some, if_pos hextra]

/-- Every expression comes back from the catalog as it was written, with the escapes of its own;
and it is the default of its column. -/
theorem quoteLiteralDefault_catalogText :
    (∀ s, unescapeOneLevel (catalogText s) = s) ∧
    ∀ s columnType extra, containsStr "DEFAULT_GENERATED" extra = true →
      quoteLiteralDefault (some (catalogText s)) columnType (some extra) = some s := by
  refine ⟨unescapeOneLevel_catalogText, fun s columnType extra hextra => ?_⟩
  rw [quoteLiteralDefault_of_contains hextra, unescapeOneLevel_catalogText]

/-- The escape `\'` in a literal of the expression is kept. -/
theorem quoteLiteralDefault_catalogText_concat :
    catalogText "concat('it\\'s')" = "concat(\\'it\\\\\\'s\\')".toList ∧
    quoteLiteralDefault (some (catalogText "concat('it\\'s')")) "varchar(30)"
      (some "DEFAULT_GENERATED") = some "concat('it\\'s')" :=
  ⟨by decide, quoteLiteralDefault_catalogText.2 _ _ _ (by decide)⟩

/-! ### The column -/

/-- The text of a generated column stands behind the extra text. -/
lemma ColumnRow.exists_extraCombined {row : ColumnRow} {extra : Str} (h : row.extra = some extra) :
    ∃ t, row.extraCombined = some (extra ++ t) := by
  unfold ColumnRow.extraCombined
  rw [h]
  cases row.generationExpression with
  | none => exact ⟨[], by simp⟩
  | some g =>
    by_cases hg : g = []
    · exact ⟨[], by simp [hg]⟩
    · exact ⟨" ".toList ++ g, by simp [hg]⟩

/-- A column whose default is an expression has this expression for its default. -/
theorem ColumnRow.defaultValue_of_catalogText {row : ColumnRow} {s extra : Str}
    (hdefault : row.columnDefault = some (catalogText s)) (hextra : row.extra = some extra)
    (hcontains : containsStr "DEFAULT_GENERATED" extra = true) :
    (row.column false).defaultValue = some s := by
  obtain ⟨t, ht⟩ := ColumnRow.exists_extraCombined hextra
  have hcombined : containsStr "DEFAULT_GENERATED" (extra ++ t) = true :=
    containsStr_iff.mpr ((containsStr_iff.mp hcontains).trans (List.prefix_append _ _).isInfix)
  show quoteLiteralDefault row.columnDefault row.columnType row.extraCombined = some s
  rw [hdefault, ht, quoteLiteralDefault_of_contains hcombined, unescapeOneLevel_catalogText]

end TdExport.MySql
