import TdExport.Core.Quoted
import TdExport.Db.MySql.Definer
import TdExport.Db.Postgres.Ddl.Safety

/-!
# Quoted identifiers are read back

By the functions that take the quotes away, and by the scanner that skips a quoted name.
-/

namespace TdExport

open Core

/-- What one dialect has for its identifiers. -/
structure Quoting where
  mark : Char
  quote : Str → Except AppError Str
  unquote : Str → Except AppError Str
  /-- The texts that no identifier may contain. -/
  refused : List Str

def quoting : DbType → Quoting
  | .mySql => ⟨'`', quoteIdentifier, unquoteIdentifier, [";", "/*", "*/", "\n", "\r"]⟩
  | .postgres =>
    ⟨'"', quotePgIdentifier, unquotePgIdentifier, [";", "/*", "*/", "\n", "\r", "\x00"]⟩

variable {q : Char} {id quoted : Str}

/-- Marks that were doubled are made one again. -/
lemma replaceStr_doubled (q : Char) (s : Str) : replaceStr [q, q] [q] (doubled q s) = s := by
  rw [replaceStr]
  induction s with
  | nil => rfl
  | cons c s ih =>
    by_cases hc : c = q
    · rw [hc, doubled_cons_self, replaceFrom, if_pos (by simp)]
      exact congrArg (q :: ·) ih
    · rw [doubled_cons_of_ne hc, replaceFrom, if_neg (by simp [Ne.symm hc]), ih]

lemma unquoteBetween_quotedBy (reason : Str → UnsafeReason) (s : Str) :
    unquoteBetween q reason (quotedBy q s) = .ok s := by
  have hstart : [q] <+: quotedBy q s := List.prefix_append [q] _
  have hend : [q] <:+ quotedBy q s := List.suffix_append (q :: doubled q s) [q]
  have hlen : ¬utf8Len (quotedBy q s) < 2 := by
    have hlength : (quotedBy q s).length = (doubled q s).length + 2 := by simp [quotedBy]
    have hle := length_le_utf8Len (quotedBy q s)
    omega
  have hinside : ((quotedBy q s).drop 1).dropLast = doubled q s := List.dropLast_concat
  rw [unquoteBetween, if_neg (by simp [hstart, hend, hlen]), hinside, replaceStr_doubled]

lemma quoting_mark (db : DbType) : (quoting db).mark = '`' ∨ (quoting db).mark = '"' := by
  cases db
  · exact .inl rfl
  · exact .inr rfl

lemma succeeds_quote (db : DbType) (id : Str) :
    Succeeds ((quoting db).quote id) ↔ ∀ text ∈ (quoting db).refused, ¬ text <:+: id := by
  cases db with
  | mySql =>
    have hbind : Succeeds (quoteIdentifier id) ↔ Succeeds (validateIdentifier id) ∧ True :=
      succeeds_bind_iff True fun _ _ => iff_of_true ⟨_, rfl⟩ trivial
    rw [and_true] at hbind
    exact hbind.trans succeeds_validateIdentifier
  | postgres => exact Postgres.succeeds_quotePgIdentifier

lemma quote_eq_ok {db : DbType} (h : (quoting db).quote id = .ok quoted) :
    quoted = quotedBy (quoting db).mark id := by
  cases db with
  | mySql => exact quoteIdentifier_eq_ok h
  | postgres => exact quotePgIdentifier_eq_ok h

lemma unquote_quotedBy (db : DbType) (s : Str) :
    (quoting db).unquote (quotedBy (quoting db).mark s) = .ok s := by
  cases db with
  | mySql => exact unquoteBetween_quotedBy _ s
  | postgres => exact unquoteBetween_quotedBy _ s

/-- A name is quoted unless it contains a refused text; then taking the quotes away gives the name
again, skipping it leads to what follows, and no other name is quoted alike. -/
theorem quoting_spec (db : DbType) (id : Str) :
    (Succeeds ((quoting db).quote id) ↔ ∀ text ∈ (quoting db).refused, ¬ text <:+: id) ∧
      ∀ quoted, (quoting db).quote id = .ok quoted →
        (quoting db).unquote quoted = .ok id ∧
        (∀ rest, rest.head? ≠ some (quoting db).mark →
          MySql.skipQuotedIdentifier (quoted ++ rest) = some rest) ∧
        ∀ id', (quoting db).quote id' = .ok quoted → id' = id := by
  refine ⟨succeeds_quote db id, fun quoted hquoted => ?_⟩
  obtain rfl := quote_eq_ok hquoted
  refine ⟨unquote_quotedBy db id, fun rest hrest => ?_, fun id' hid' => ?_⟩
  · exact MySql.skipQuotedIdentifier_append (quoting_mark db) id hrest
  · exact quotedBy_injective _ (quote_eq_ok hid').symm

end TdExport
