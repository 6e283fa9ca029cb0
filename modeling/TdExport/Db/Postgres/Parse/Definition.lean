import TdExport.Core.Search
import TdExport.Core.Words
import TdExport.Db.Postgres.Parse.Basic

/-!
# Index definitions

The definitions that PostgreSQL prints for indexes, part by part. The parts are arbitrary text: what
the parser makes of them is stated for each of its results.
-/

namespace TdExport.Postgres

open Core

/-- A key column: a name or an expression, and the words that follow it, such as a collation, an
operator class, `DESC` or `NULLS FIRST`. -/
structure KeyColumn where
  key : Str
  modifiers : List Str
  deriving DecidableEq, Repr

def KeyColumn.text (k : KeyColumn) : Str := k.key ++ k.modifiers.flatMap (' ' :: ·)

structure IndexDef where
  unique : Bool
  name : Str
  only : Bool
  relation : Str
  method : Str
  columns : List KeyColumn
  predicate : Option Str
  deriving DecidableEq, Repr

namespace IndexDef

variable (d : IndexDef)

/-- What stands before `USING`. -/
def before : Str :=
  "CREATE " ++ (if d.unique then "UNIQUE ".toList else []) ++ "INDEX " ++ d.name ++ " ON " ++
    (if d.only then "ONLY ".toList else []) ++ d.relation ++ " "

/-- The key columns, without the parentheses around them. -/
def keyText : Str := (", ".toList).intercalate (d.columns.map KeyColumn.text)

def whereText : Str :=
  match d.predicate with
  | some pred => " WHERE " ++ pred
  | none => []

def text : Str := d.before ++ "USING " ++ d.method ++ " (" ++ d.keyText ++ ")" ++ d.whereText

end IndexDef

@[simp] lemma toAsciiUppercase_nil : toAsciiUppercase [] = [] := rfl

@[simp] lemma toAsciiUppercase_append (s t : Str) :
    toAsciiUppercase (s ++ t) = toAsciiUppercase s ++ toAsciiUppercase t := by
  simp [toAsciiUppercase]

lemma toUpper_of_not_ascii {c : Char} (h : 128 ≤ c.toNat) : c.toUpper = c := by
  refine dif_neg ?_
  rintro ⟨-, hle⟩
  exact absurd (h.trans (UInt32.le_iff_toNat_le.mp hle)) (by decide)

lemma isWhitespace_toUpper (c : Char) : isWhitespace c.toUpper = isWhitespace c := by
  rcases Nat.lt_or_ge c.toNat 128 with hc | hc
  · have hascii : ∀ n < 128,
        isWhitespace (Char.ofNat n).toUpper = isWhitespace (Char.ofNat n) := by decide
    have := hascii c.toNat hc
    rwa [Char.ofNat_toNat] at this
  · rw [toUpper_of_not_ascii hc]

lemma isWord_toAsciiUppercase_iff {s : Str} : IsWord (toAsciiUppercase s) ↔ IsWord s := by
  have hblack : (∀ c ∈ toAsciiUppercase s, isWhitespace c = false) ↔
      ∀ c ∈ s, isWhitespace c = false := by
    simp [toAsciiUppercase, isWhitespace_toUpper]
  have hnil : toAsciiUppercase s ≠ [] ↔ s ≠ [] := by simp [toAsciiUppercase]
  exact ⟨fun h => ⟨hnil.mp h.ne_nil, hblack.mp h.black⟩,
    fun h => ⟨hnil.mpr h.ne_nil, hblack.mpr h.black⟩⟩

end TdExport.Postgres
