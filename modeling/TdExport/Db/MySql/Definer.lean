import TdExport.Core.Quoted
import TdExport.Core.Search
import TdExport.Db.MySql.Basic

/-!
# Definers

`without_definer` of `db/mysql.rs`: the account that defined a view or a routine is taken out of its
definition.
-/

namespace TdExport.MySql

open Core

/-- The loop of `skip_quoted_identifier`: what follows the first `quote` that does not stand before
another one. -/
def skipQuotedFrom (quote : Char) : Str → Option Str
  | [] => none
  | c :: rest =>
    if c = quote then
      match rest with
      | [] => some []
      | d :: after => if d = quote then skipQuotedFrom quote after else some (d :: after)
    else skipQuotedFrom quote rest

/-- What follows the quoted name at the start of `s`. -/
def skipQuotedIdentifier : Str → Option Str
  | [] => none
  | quote :: rest => if quote = '`' ∨ quote = '"' then skipQuotedFrom quote rest else none

/-- The algorithm of a view as it is written, and what follows it. -/
def splitAlgorithm (rest : Str) : Option (Str × Str) :=
  match stripPrefix "ALGORITHM=" rest with
  | some after =>
    (splitOnce " " after).map fun p => ("ALGORITHM=".toList ++ p.1 ++ " ".toList, p.2)
  | none => some ([], rest)

def withoutDefiner (ddl : Str) : Option Str := do
  let rest ← stripPrefix "CREATE " ddl
  let (algorithm, rest) ← splitAlgorithm rest
  let rest ← stripPrefix "DEFINER=" rest
  let rest ← skipQuotedIdentifier rest
  let rest ← stripPrefix "@" rest
  let rest ← skipQuotedIdentifier rest
  let rest ← stripPrefix " " rest
  return "CREATE " ++ algorithm ++ rest

/-! ### Headers -/

/-- The marks around a name; double quotes under `ANSI_QUOTES`. -/
inductive NameQuote where
  | backtick
  | doubleQuote
  deriving DecidableEq, Repr

def NameQuote.mark : NameQuote → Char
  | .backtick => '`'
  | .doubleQuote => '"'

/-- The start of the definition of a view or of a routine, and what follows it. -/
structure DefinerHeader where
  algorithm : Option Str
  userQuote : NameQuote
  user : Str
  hostQuote : NameQuote
  host : Str
  tail : Str
  deriving DecidableEq, Repr

namespace DefinerHeader

variable (d : DefinerHeader)

def algorithmText : Str :=
  match d.algorithm with
  | some algorithm => "ALGORITHM=" ++ algorithm ++ " "
  | none => []

def accountText : Str := quotedBy d.userQuote.mark d.user ++ "@" ++ quotedBy d.hostQuote.mark d.host

def text : Str := "CREATE " ++ d.algorithmText ++ "DEFINER=" ++ d.accountText ++ " " ++ d.tail

end DefinerHeader

/-! ### Quoted names -/

lemma skipQuotedFrom_eq (quote : Char) (s : Str) :
    skipQuotedFrom quote s = (readQuoted quote s).map Prod.snd := by
  fun_induction skipQuotedFrom quote s with
  | case1 => rfl
  | case2 => simp [readQuoted]
  | case3 after ih =>
    rw [readQuoted_double, ih, Option.map_map]
    rfl
  | case4 d after hd => rw [readQuoted_close (by simpa using hd), Option.map_some]
  | case5 c rest hc ih =>
    rw [readQuoted_of_ne hc, ih, Option.map_map]
    rfl

/-- The name is skipped, whatever marks it contains. -/
lemma skipQuotedIdentifier_append {quote : Char} (hquote : quote = '`' ∨ quote = '"') (name : Str)
    {rest : Str} (hrest : rest.head? ≠ some quote) :
    skipQuotedIdentifier (quotedBy quote name ++ rest) = some rest := by
  rw [quotedBy, List.cons_append, skipQuotedIdentifier, if_pos hquote, List.append_assoc,
    List.singleton_append, skipQuotedFrom_eq, readQuoted_doubled hrest]
  rfl

lemma NameQuote.mark_eq (quote : NameQuote) : quote.mark = '`' ∨ quote.mark = '"' := by
  cases quote
  · exact .inl rfl
  · exact .inr rfl

/-! ### The header without the definer -/

namespace DefinerHeader

variable {d : DefinerHeader}

lemma splitAlgorithm_text (h : ∀ algorithm ∈ d.algorithm, ' ' ∉ algorithm) (account : Str) :
    splitAlgorithm (d.algorithmText ++ ("DEFINER=" ++ account)) =
      some (d.algorithmText, "DEFINER=" ++ account) := by
  rw [algorithmText, splitAlgorithm]
  cases halgorithm : d.algorithm with
  | none => rfl
  | some algorithm =>
    have hsplit := splitOnce_of_not_mem (h algorithm halgorithm) ("DEFINER=" ++ account)
    have hassoc : ("ALGORITHM=" ++ algorithm ++ " " ++ ("DEFINER=" ++ account) : Str) =
        "ALGORITHM=" ++ (algorithm ++ ' ' :: ("DEFINER=" ++ account)) := by
      simp
    simp only [hassoc, stripPrefix_append]
    rw [show " ".toList = [' '] from rfl, hsplit]
    rfl

lemma skip_user (d : DefinerHeader) (rest : Str) :
    skipQuotedIdentifier (quotedBy d.userQuote.mark d.user ++ ("@" ++ rest)) =
      some ("@" ++ rest) := by
  apply skipQuotedIdentifier_append d.userQuote.mark_eq
  cases d.userQuote <;> simp [NameQuote.mark]

lemma skip_host (d : DefinerHeader) (rest : Str) :
    skipQuotedIdentifier (quotedBy d.hostQuote.mark d.host ++ (" " ++ rest)) =
      some (" " ++ rest) := by
  apply skipQuotedIdentifier_append d.hostQuote.mark_eq
  cases d.hostQuote <;> simp [NameQuote.mark]

end DefinerHeader

/-- The definer is removed, and nothing else. -/
theorem withoutDefiner_text (d : DefinerHeader)
    (h : ∀ algorithm ∈ d.algorithm, ' ' ∉ algorithm) :
    withoutDefiner d.text = some ("CREATE " ++ d.algorithmText ++ d.tail) := by
  have htext : d.text = "CREATE " ++ (d.algorithmText ++ ("DEFINER=" ++
      (quotedBy d.userQuote.mark d.user ++ ("@" ++
        (quotedBy d.hostQuote.mark d.host ++ (" " ++ d.tail)))))) := by
    unfold DefinerHeader.text DefinerHeader.accountText
    simp only [List.append_assoc]
  simp only [withoutDefiner, htext, stripPrefix_append, Option.bind_eq_bind, Option.bind_some,
    DefinerHeader.splitAlgorithm_text h, d.skip_user, d.skip_host]
  rfl

/-- The header of a view whose definer has quotation marks in its name. -/
def viewHeader : DefinerHeader where
  algorithm := some "UNDEFINED"
  userQuote := .backtick
  user := "`o\"@ DEFINER=`"
  hostQuote := .doubleQuote
  host := []
  tail := "SQL SECURITY DEFINER VIEW `v` AS select 1 AS `DEFINER=`"

theorem withoutDefiner_text_viewHeader :
    withoutDefiner viewHeader.text =
      some ("CREATE " ++ viewHeader.algorithmText ++ viewHeader.tail) :=
  withoutDefiner_text viewHeader (by rintro _ ⟨⟩; decide)

end TdExport.MySql
