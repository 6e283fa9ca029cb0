import TdExport.Db.MySql.Basic
import TdExport.Export.Markdown.Rows

/-!
# The default cell of a string column

What the documents show as the default of a string column of MySQL tells every default from every
other, and from no default.
-/

namespace TdExport.MySql

open Core Markdown

/-! ### The reader of a literal -/

/-- What a backslash and `c` stand for in a literal of MySQL. -/
def backslashPair (c : Char) : Str :=
  if c = '0' then ['\x00']
  else if c = 'b' then ['\x08']
  else if c = 'n' then ['\n']
  else if c = 'r' then ['\r']
  else if c = 't' then ['\t']
  else if c = 'Z' then ['\x1a']
  else if c = '%' ∨ c = '_' then ['\\', c]
  else [c]

/-- The value of a literal behind its opening apostrophe; `none` unless the text ends with the
closing one. -/
def decodeLiteralFrom : Str → Option Str
  | [] => none
  | ['\''] => some []
  | '\'' :: '\'' :: s => (decodeLiteralFrom s).map ('\'' :: ·)
  | '\'' :: _ => none
  | ['\\'] => none
  | '\\' :: c :: s => (decodeLiteralFrom s).map (backslashPair c ++ ·)
  | c :: s => (decodeLiteralFrom s).map (c :: ·)

/-- The value of a single-quoted literal. -/
def decodeLiteral : Str → Option Str
  | '\'' :: s => decodeLiteralFrom s
  | _ => none

lemma decodeLiteralFrom_backslash (c : Char) (s : Str) :
    decodeLiteralFrom ('\\' :: c :: s) = (decodeLiteralFrom s).map (backslashPair c ++ ·) := by
  rw [decodeLiteralFrom]

lemma decodeLiteralFrom_apostrophes (s : Str) :
    decodeLiteralFrom ('\'' :: '\'' :: s) = (decodeLiteralFrom s).map ('\'' :: ·) := by
  rw [decodeLiteralFrom]

lemma decodeLiteralFrom_plain {c : Char} (hapostrophe : c ≠ '\'') (hbackslash : c ≠ '\\')
    (s : Str) : decodeLiteralFrom (c :: s) = (decodeLiteralFrom s).map (c :: ·) := by
  rw [decodeLiteralFrom]
  · exact fun h _ => hapostrophe h
  · exact fun _ h _ => hapostrophe h
  · exact fun h => hapostrophe h
  · exact fun h _ => hbackslash h
  · exact fun _ _ h _ => hbackslash h

/-- One character of a literal is read back, whatever follows. -/
lemma decodeLiteralFrom_literalChar (c : Char) (s : Str) :
    decodeLiteralFrom (literalChar c ++ s) = (decodeLiteralFrom s).map (c :: ·) := by
  unfold literalChar
  split_ifs with h₁ h₂ h₃ h₄ h₅ h₆
  · rw [h₁]
    exact decodeLiteralFrom_backslash '\\' s
  · rw [h₂]
    exact decodeLiteralFrom_apostrophes s
  · rw [h₃]
    exact decodeLiteralFrom_backslash 'n' s
  · rw [h₄]
    exact decodeLiteralFrom_backslash 'r' s
  · rw [h₅]
    exact decodeLiteralFrom_backslash '0' s
  · rw [h₆]
    exact decodeLiteralFrom_backslash 'Z' s
  · exact decodeLiteralFrom_plain h₂ h₁ s

/-- A quoted string is a literal with that value. -/
theorem decodeLiteral_quoteStringLiteral (v : Str) :
    decodeLiteral (quoteStringLiteral v) = some v := by
  show decodeLiteralFrom (replaceChars literalChar v ++ ['\'']) = some v
  induction v with
  | nil => rfl
  | cons c v ih =>
    rw [replaceChars, List.flatMap_cons, List.append_assoc, decodeLiteralFrom_literalChar,
      ← replaceChars, ih, Option.map_some]

/-! ### Through the cell -/

lemma isLineBreak_literalChar {c d : Char} (h : d ∈ literalChar c) : isLineBreak d = false := by
  unfold literalChar at h
  split_ifs at h with h₁ h₂ h₃ h₄ h₅ h₆
  · rcases List.mem_pair.mp h with rfl | rfl <;> rfl
  · rcases List.mem_pair.mp h with rfl | rfl <;> rfl
  · rcases List.mem_pair.mp h with rfl | rfl <;> rfl
  · rcases List.mem_pair.mp h with rfl | rfl <;> rfl
  · rcases List.mem_pair.mp h with rfl | rfl <;> rfl
  · rcases List.mem_pair.mp h with rfl | rfl <;> rfl
  · rw [List.mem_singleton.mp h]
    simp [isLineBreak, h₃, h₄]

/-- A quoted string stands on one line. -/
lemma isLineBreak_quoteStringLiteral {v : Str} {c : Char} (h : c ∈ quoteStringLiteral v) :
    isLineBreak c = false := by
  rcases List.mem_cons.mp h with rfl | h
  · rfl
  · rcases List.mem_append.mp h with h | h
    · obtain ⟨d, -, hd⟩ := List.mem_flatMap.mp h
      exact isLineBreak_literalChar hd
    · rw [List.mem_singleton.mp h]
      rfl

/-! ### String columns -/

/-- A column of a character type whose default is no expression. -/
structure IsStringRow (row : ColumnRow) : Prop where
  baseType_mem : baseType row.columnType ∈
    (["char", "varchar", "tinytext", "text", "mediumtext", "longtext", "enum", "set"] : List Str)
  not_defaultGenerated : ∀ e, row.extraCombined = some e →
    containsStr "DEFAULT_GENERATED" e = false

variable {row row₁ row₂ : ColumnRow}

/-- A character type is quoted, and is neither a binary nor a temporal type. -/
lemma stringType_facts : ∀ base ∈ (["char", "varchar", "tinytext", "text", "mediumtext",
    "longtext", "enum", "set"] : List Str), base ≠ "binary".toList ∧ base ≠ "varbinary".toList ∧
      isStringType base = true ∧ isTemporalType base = false := by
  decide

lemma IsStringRow.quoteLiteralDefault_eq (h : IsStringRow row) (default : Option Str) :
    quoteLiteralDefault default row.columnType row.extraCombined =
      default.map quoteStringLiteral := by
  have hextra : row.extraCombined.any (containsStr "DEFAULT_GENERATED") = false := by
    cases hcombined : row.extraCombined with
    | none => rfl
    | some e =>
      rw [Option.any_some]
      exact h.not_defaultGenerated e hcombined
  obtain ⟨hbinary, hvarbinary, hstring, htemporal⟩ := stringType_facts _ h.baseType_mem
  unfold quoteLiteralDefault
  congr 1
  funext value
  simp only [hextra, hbinary, hvarbinary, hstring, htemporal]
  simp

/-- The default that is shown: a literal, or the text for no default. -/
lemma IsStringRow.displayDefault_eq (h : IsStringRow row) :
    (row.column false).displayDefault =
      match row.columnDefault with
      | some v => quoteStringLiteral v
      | none =>
        if (row.column false).nullable = "YES".toList ∧ ¬ (row.column false).isGenerated then "NULL"
        else [] := by
  have hvalue : (row.column false).defaultValue = row.columnDefault.map quoteStringLiteral := by
    rw [← h.quoteLiteralDefault_eq]
    rfl
  unfold ColumnInfo.displayDefault
  rw [hvalue]
  cases row.columnDefault with
  | none => rfl
  | some v => rfl

/-- No literal is shown for a column without a default. -/
lemma IsStringRow.displayDefault_of_none (h : IsStringRow row) (hnone : row.columnDefault = none) :
    (row.column false).displayDefault = "NULL" ∨ (row.column false).displayDefault = [] := by
  rw [h.displayDefault_eq, hnone]
  split_ifs
  · exact .inl rfl
  · exact .inr rfl

lemma IsStringRow.displayDefault_of_some (h : IsStringRow row) {v : Str}
    (hsome : row.columnDefault = some v) :
    (row.column false).displayDefault = quoteStringLiteral v := by
  rw [h.displayDefault_eq, hsome]

lemma IsStringRow.isLineBreak_displayDefault (h : IsStringRow row) :
    ∀ c ∈ (row.column false).displayDefault, isLineBreak c = false := by
  intro c hc
  cases hdefault : row.columnDefault with
  | none =>
    rcases h.displayDefault_of_none hdefault with heq | heq
    · rw [heq] at hc
      simp only [String.reduceToList, List.mem_cons, List.not_mem_nil, or_false] at hc
      rcases hc with rfl | rfl | rfl | rfl <;> rfl
    · rw [heq] at hc
      exact absurd hc List.not_mem_nil
  | some v =>
    rw [h.displayDefault_of_some hdefault] at hc
    exact isLineBreak_quoteStringLiteral hc

/-- What is shown for no default is no literal. -/
lemma IsStringRow.decodeLiteral_displayDefault (h : IsStringRow row) :
    decodeLiteral (row.column false).displayDefault = row.columnDefault := by
  cases hdefault : row.columnDefault with
  | none =>
    rcases h.displayDefault_of_none hdefault with heq | heq <;> rw [heq] <;> rfl
  | some v => rw [h.displayDefault_of_some hdefault, decodeLiteral_quoteStringLiteral]

/-- The default cells of two string columns are equal only when their defaults are; and a default
is shown as a literal that MySQL reads as the default. -/
theorem cell_displayDefault_injective (h₁ : IsStringRow row₁) (h₂ : IsStringRow row₂) :
    (cell (row₁.column false).displayDefault = cell (row₂.column false).displayDefault →
      row₁.columnDefault = row₂.columnDefault) ∧
    ∀ v, row₁.columnDefault = some v →
      (row₁.column false).displayDefault = quoteStringLiteral v ∧
        decodeLiteral (row₁.column false).displayDefault = some v := by
  constructor
  · intro hcell
    rw [← h₁.decodeLiteral_displayDefault, ← h₂.decodeLiteral_displayDefault,
      cell_injOn h₁.isLineBreak_displayDefault h₂.isLineBreak_displayDefault hcell]
  · intro v hv
    constructor
    · exact h₁.displayDefault_of_some hv
    · rw [h₁.decodeLiteral_displayDefault, hv]

/-! ### The text `NULL` -/

/-- A nullable column of type `varchar(10)`. -/
def codeRow (default : Option Str) : ColumnRow where
  columnName := "code"
  columnDefault := default
  isNullable := "YES"
  columnType := "varchar(10)"
  characterSetName := none
  collationName := none
  columnKey := none
  extra := none
  generationExpression := none
  columnComment := none

lemma isStringRow_codeRow (default : Option Str) : IsStringRow (codeRow default) where
  baseType_mem := by
    show baseType "varchar(10)" ∈ _
    decide
  not_defaultGenerated := by
    intro e he
    cases he

theorem cell_displayDefault_injective_codeRow :
    (cell ((codeRow (some "NULL")).column false).displayDefault =
        cell ((codeRow none).column false).displayDefault →
      (codeRow (some "NULL")).columnDefault = (codeRow none).columnDefault) ∧
    ∀ v, (codeRow (some "NULL")).columnDefault = some v →
      ((codeRow (some "NULL")).column false).displayDefault = quoteStringLiteral v ∧
        decodeLiteral ((codeRow (some "NULL")).column false).displayDefault = some v :=
  cell_displayDefault_injective (isStringRow_codeRow _) (isStringRow_codeRow _)

end TdExport.MySql
