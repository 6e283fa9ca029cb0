import TdExport.Core.Fallible
import TdExport.Core.Quoted
import TdExport.Model.Basic

/-!
# Quoting of identifiers

`identifier.rs`.
-/

namespace TdExport

open Core

/-- The texts that no identifier may contain. -/
def dangerousTexts : List Str := [";", "/*", "*/", "\n", "\r"]

def validateIdentifier (id : Str) : Except AppError Unit :=
  if dangerousTexts.any (containsStr · id) then .error (.unsafeIdentifier (.dangerous id))
  else .ok ()

/-- Double every `q` in `s`. -/
def doubleQuotes (q : Char) (s : Str) : Str :=
  replaceChars (fun c => if c = q then [q, q] else [c]) s

lemma doubleQuotes_eq (q : Char) (s : Str) : doubleQuotes q s = doubled q s := rfl

/-- The identifier between backticks. -/
def quoteIdentifier (id : Str) : Except AppError Str := do
  validateIdentifier id
  return "`" ++ doubleQuotes '`' id ++ "`"

/-- The identifier between double quotes. -/
def quotePgIdentifier (id : Str) : Except AppError Str := do
  validateIdentifier id
  if '\x00' ∈ id then throw (.unsafeIdentifier .nullByte)
  return "\"" ++ doubleQuotes '"' id ++ "\""

/-- The text between two `q`, with two `q` in it made one; `reason` is the error for other texts. -/
def unquoteBetween (q : Char) (reason : Str → UnsafeReason) (quoted : Str) : Except AppError Str :=
  if ¬[q] <+: quoted ∨ ¬[q] <:+ quoted ∨ utf8Len quoted < 2 then
    .error (.unsafeIdentifier (reason quoted))
  else .ok (replaceStr [q, q] [q] (quoted.drop 1).dropLast)

def unquoteIdentifier : Str → Except AppError Str := unquoteBetween '`' .notBackquoted

def unquotePgIdentifier : Str → Except AppError Str := unquoteBetween '"' .notDoubleQuoted

lemma quoteIdentifier_eq_ok {id quoted : Str} (h : quoteIdentifier id = .ok quoted) :
    quoted = quotedBy '`' id := by
  obtain ⟨-, -, hquoted⟩ := bind_eq_ok.mp h
  cases hquoted
  rfl

lemma quotePgIdentifier_eq_ok {id quoted : Str} (h : quotePgIdentifier id = .ok quoted) :
    quoted = quotedBy '"' id := by
  obtain ⟨-, -, h⟩ := bind_eq_ok.mp h
  by_cases hnull : '\x00' ∈ id
  · rw [if_pos hnull] at h
    cases h
  · rw [if_neg hnull] at h
    cases h
    rfl

lemma succeeds_validateIdentifier {id : Str} :
    Succeeds (validateIdentifier id) ↔ ∀ text ∈ dangerousTexts, ¬ text <:+: id := by
  have hany : (dangerousTexts.any (containsStr · id)) = true ↔
      ∃ text ∈ dangerousTexts, text <:+: id := by
    simp only [List.any_eq_true, containsStr_iff]
  rw [validateIdentifier]
  split_ifs with h
  · rw [hany] at h
    obtain ⟨text, htext, hin⟩ := h
    refine iff_of_false ?_ fun hall => hall text htext hin
    rintro ⟨_, hok⟩
    cases hok
  · rw [hany] at h
    push Not at h
    exact iff_of_true ⟨(), rfl⟩ h

end TdExport
