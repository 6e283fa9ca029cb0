import TdExport.Core.Nesting
import TdExport.Core.Search
import TdExport.Export.Sql.TokenText
import TdExport.Identifier.Properties

/-!
# Statements with free text

Comments, the labels of enumerations and the options of foreign tables: `build_comment_ddl` of
`db/postgres/comment.rs`, `build_enum_ddl` of `db/postgres/schema_ddl.rs` and `build_foreign_suffix`
of `db/postgres/foreign.rs`.
-/

namespace TdExport.Postgres

open Core

/-! ### The statements -/

/-- A literal, for `standard_conforming_strings = on`. -/
def quoteLiteral (value : Str) : Str := "'" ++ doubleQuotes '\'' value ++ "'"

def qualified (schema name : Str) : Except AppError Str := do
  let schema ← quotePgIdentifier schema
  let name ← quotePgIdentifier name
  return schema ++ "." ++ name

/-- The kind of a relation by its `relkind`. -/
def relationKind (relkind : Str) : Str :=
  if relkind = "v".toList then "VIEW"
  else if relkind = "m".toList then "MATERIALIZED VIEW"
  else if relkind = "f".toList then "FOREIGN TABLE"
  else "TABLE"

/-- What is commented on: a column, or the relation itself. -/
def commentObject (target relkind : Str) : Option Str → Except AppError Str
  | some column => do
    let column ← quotePgIdentifier column
    return "COLUMN " ++ target ++ "." ++ column
  | none => return relationKind relkind ++ " " ++ target

def buildCommentDdl (schema relation relkind : Str) (column : Option Str) (comment : Str) :
    Except AppError Str := do
  let target ← qualified schema relation
  let object ← commentObject target relkind column
  return "COMMENT ON " ++ object ++ " IS " ++ quoteLiteral comment ++ ";"

def buildEnumDdl (schema name : Str) (labels : List Str) : Except AppError Str := do
  let type ← qualified schema name
  return "CREATE TYPE " ++ type ++ " AS ENUM (" ++
    (", ".toList).intercalate (labels.map quoteLiteral) ++ ");"

/-- The key of an option and its value, which is empty when there is none. -/
def splitOption (option : Str) : Str × Str := (splitOnce "=" option).getD (option, [])

def optionText (option : Str) : Except AppError Str := do
  let key ← quotePgIdentifier (splitOption option).1
  return key ++ " " ++ quoteLiteral (splitOption option).2

def optionsClause (options : List Str) : Except AppError Str := do
  let options ← options.mapM optionText
  return "OPTIONS (" ++ (", ".toList).intercalate options ++ ")"

def buildForeignSuffix (server : Str) (options : List Str) : Except AppError Str := do
  let server ← quotePgIdentifier server
  if options = [] then return "SERVER " ++ server
  let clause ← optionsClause options
  return "SERVER " ++ server ++ " " ++ clause

/-! ### What was built -/

open Sql Sql.PgToken

variable {schema relation relkind comment name server ddl : Str}

lemma quoteLiteral_eq (value : Str) : quoteLiteral value = quotedBy '\'' value := rfl

lemma qualified_eq_ok {target : Str} (h : qualified schema name = .ok target) :
    target = quotedBy '"' schema ++ "." ++ quotedBy '"' name := by
  obtain ⟨s, hs, h⟩ := bind_eq_ok.mp h
  obtain ⟨n, hn, h⟩ := bind_eq_ok.mp h
  cases h
  rw [quotePgIdentifier_eq_ok hs, quotePgIdentifier_eq_ok hn]

/-! ### Comments -/

/-- The words for the kind of a relation. -/
def kindTokens (relkind : Str) : List PgToken :=
  if relkind = "v".toList then [word "VIEW".toList]
  else if relkind = "m".toList then [word "MATERIALIZED".toList, symbol ' ', word "VIEW".toList]
  else if relkind = "f".toList then [word "FOREIGN".toList, symbol ' ', word "TABLE".toList]
  else [word "TABLE".toList]

def objectTokens (schema relation relkind : Str) : Option Str → List PgToken
  | some column => [word "COLUMN".toList, symbol ' ', ident schema, symbol '.',
      ident relation, symbol '.', ident column]
  | none => kindTokens relkind ++ [symbol ' ', ident schema, symbol '.', ident relation]

def commentTokens (schema relation relkind : Str) (column : Option Str) (comment : Str) :
    List PgToken :=
  [word "COMMENT".toList, symbol ' ', word "ON".toList] ++ symbol ' ' ::
    (objectTokens schema relation relkind column ++ symbol ' ' ::
      [word "IS".toList, symbol ' ', literal comment])

lemma says_kindTokens (relkind : Str) : Says (kindTokens relkind) [] [] := by
  rw [kindTokens]
  split_ifs <;> exact says_of_decide rfl rfl rfl

lemma flatMap_kindTokens (relkind : Str) :
    (kindTokens relkind).flatMap text = relationKind relkind := by
  rw [kindTokens, relationKind]
  split_ifs <;> simp [text]

lemma says_objectTokens (schema relation relkind : Str) (column : Option Str) :
    Says (objectTokens schema relation relkind column) (schema :: relation :: column.toList)
      [] := by
  cases column with
  | some column => exact says_of_decide rfl rfl rfl
  | none =>
    exact (says_kindTokens relkind).append_symbol (by decide) (by decide)
      (says_of_decide rfl rfl rfl)

lemma says_commentTokens (schema relation relkind : Str) (column : Option Str) (comment : Str) :
    Says (commentTokens schema relation relkind column comment)
      (schema :: relation :: column.toList) [comment] := by
  have hstart : Says [word "COMMENT".toList, symbol ' ', word "ON".toList] [] [] :=
    says_of_decide rfl rfl rfl
  have hend : Says [word "IS".toList, symbol ' ', literal comment] [] [comment] :=
    says_of_decide rfl rfl rfl
  have hobject := says_objectTokens schema relation relkind column
  have hrest := hobject.append_symbol (c := ' ') (by decide) (by decide) hend
  rw [List.append_nil, List.nil_append] at hrest
  exact hstart.append_symbol (by decide) (by decide) hrest

lemma buildCommentDdl_eq_ok {column : Option Str}
    (h : buildCommentDdl schema relation relkind column comment = .ok ddl) :
    ddl = (commentTokens schema relation relkind column comment ++ [symbol ';']).flatMap text := by
  obtain ⟨target, htarget, h⟩ := bind_eq_ok.mp h
  obtain ⟨object, hobject, h⟩ := bind_eq_ok.mp h
  have hobject : object = (objectTokens schema relation relkind column).flatMap text := by
    rw [qualified_eq_ok htarget] at hobject
    cases column with
    | some column =>
      obtain ⟨c, hc, hobject⟩ := bind_eq_ok.mp hobject
      cases hobject
      rw [quotePgIdentifier_eq_ok hc]
      simp [objectTokens, text]
    | none =>
      cases hobject
      rw [objectTokens, List.flatMap_append, flatMap_kindTokens]
      simp [text]
  cases h
  rw [hobject, quoteLiteral_eq, commentTokens]
  simp [text]

/-! ### Enumerations -/

/-- Quoted texts joined by commas. -/
def commaTokens (tss : List (List PgToken)) : List PgToken :=
  [symbol ',', symbol ' '].intercalate tss

lemma flatMap_commaTokens (tss : List (List PgToken)) :
    (commaTokens tss).flatMap text = (", ".toList).intercalate (tss.map (List.flatMap text)) :=
  flatMap_intercalate text _ _

def enumTokens (schema name : Str) (labels : List Str) : List PgToken :=
  [word "CREATE".toList, symbol ' ', word "TYPE".toList, symbol ' ', ident schema,
    symbol '.', ident name, symbol ' ', word "AS".toList, symbol ' ',
    word "ENUM".toList, symbol ' '] ++ symbol '(' ::
    (commaTokens (labels.map fun label => [literal label]) ++ symbol ')' :: [])

lemma says_enumTokens (schema name : Str) (labels : List Str) :
    Says (enumTokens schema name labels) [schema, name] labels := by
  have hstart : Says [word "CREATE".toList, symbol ' ', word "TYPE".toList, symbol ' ',
      ident schema, symbol '.', ident name, symbol ' ', word "AS".toList, symbol ' ',
      word "ENUM".toList, symbol ' '] [schema, name] [] := says_of_decide rfl rfl rfl
  have hend : Says [] [] [] := says_of_decide rfl rfl rfl
  have hlabels : Says (commaTokens (labels.map fun label => [literal label])) [] labels := by
    have hlabel : ∀ label ∈ labels, Says [literal label] [] [label] :=
      fun label _ => says_of_decide rfl rfl rfl
    have hall := says_intercalate (p := fun _ => []) hlabel
    rwa [List.flatMap_singleton', List.flatMap_eq_nil_iff.mpr fun _ _ => rfl] at hall
  have hrest := hlabels.append_symbol (c := ')') (by decide) (by decide) hend
  rw [List.append_nil, List.append_nil] at hrest
  exact hstart.append_symbol (by decide) (by decide) hrest

lemma map_quoteLiteral (labels : List Str) :
    (labels.map fun label => [PgToken.literal label]).map (List.flatMap text) =
      labels.map quoteLiteral := by
  rw [List.map_map]
  apply List.map_congr_left
  intro label _
  exact List.append_nil _

lemma buildEnumDdl_eq_ok {labels : List Str} (h : buildEnumDdl schema name labels = .ok ddl) :
    ddl = (enumTokens schema name labels ++ [symbol ';']).flatMap text := by
  obtain ⟨type, htype, h⟩ := bind_eq_ok.mp h
  cases h
  rw [qualified_eq_ok htype, enumTokens]
  simp only [List.flatMap_append, List.flatMap_cons, flatMap_commaTokens, map_quoteLiteral]
  simp [text]

/-! ### Options of foreign tables -/

/-- The text before the first `=`. -/
def optionKey (option : Str) : Str := option.takeWhile (· ≠ '=')

/-- The text after the first `=`, if there is one. -/
def optionValue (option : Str) : Str := (option.dropWhile (· ≠ '=')).drop 1

lemma splitOption_eq (option : Str) : splitOption option = (optionKey option, optionValue option) :=
  splitOnce_char '=' option

def optionTokens (option : Str) : List PgToken :=
  [ident (optionKey option), symbol ' ', literal (optionValue option)]

def clauseTokens (options : List Str) : List PgToken :=
  [word "OPTIONS".toList, symbol ' '] ++ symbol '(' ::
    (commaTokens (options.map optionTokens) ++ symbol ')' :: [])

def foreignTokens (server : Str) (options : List Str) : List PgToken :=
  [word "SERVER".toList, symbol ' ', ident server] ++
    if options = [] then [] else symbol ' ' :: clauseTokens options

lemma says_clauseTokens (options : List Str) :
    Says (clauseTokens options) (options.map optionKey) (options.map optionValue) := by
  have hword : Says [word "OPTIONS".toList, symbol ' '] [] [] := says_of_decide rfl rfl rfl
  have hend : Says [] [] [] := says_of_decide rfl rfl rfl
  have hoptions : Says (commaTokens (options.map optionTokens)) (options.map optionKey)
      (options.map optionValue) := by
    have hoption : ∀ option ∈ options,
        Says (optionTokens option) [optionKey option] [optionValue option] :=
      fun option _ => says_of_decide rfl rfl rfl
    have hall := says_intercalate hoption
    rwa [← List.map_eq_flatMap, ← List.map_eq_flatMap] at hall
  have hrest := hoptions.append_symbol (c := ')') (by decide) (by decide) hend
  rw [List.append_nil, List.append_nil] at hrest
  exact hword.append_symbol (by decide) (by decide) hrest

lemma says_foreignTokens (server : Str) (options : List Str) :
    Says (foreignTokens server options) (server :: options.map optionKey)
      (options.map optionValue) := by
  have hstart : Says [word "SERVER".toList, symbol ' ', ident server] [server] [] :=
    says_of_decide rfl rfl rfl
  rw [foreignTokens]
  split_ifs with hoptions
  · rw [List.append_nil, hoptions]
    exact hstart
  · exact hstart.append_symbol (by decide) (by decide) (says_clauseTokens options)

lemma optionText_eq_ok {option entry : Str} (h : optionText option = .ok entry) :
    entry = (optionTokens option).flatMap text := by
  obtain ⟨key, hkey, h⟩ := bind_eq_ok.mp h
  cases h
  rw [quotePgIdentifier_eq_ok hkey, splitOption_eq, optionTokens, quoteLiteral_eq]
  simp [text]

lemma optionsClause_eq_ok {options : List Str} {clause : Str}
    (h : optionsClause options = .ok clause) : clause = (clauseTokens options).flatMap text := by
  obtain ⟨entries, hentries, h⟩ := bind_eq_ok.mp h
  cases h
  have hmap : entries = (options.map optionTokens).map (List.flatMap text) := by
    rw [List.map_map]
    exact eq_map_of_mapM_eq_ok (fun _ _ => optionText_eq_ok) hentries
  simp only [clauseTokens, List.flatMap_append, List.flatMap_cons, flatMap_commaTokens, ← hmap]
  simp [text]

lemma buildForeignSuffix_eq_ok {options : List Str}
    (h : buildForeignSuffix server options = .ok ddl) :
    ddl = (foreignTokens server options).flatMap text := by
  obtain ⟨quoted, hquoted, h⟩ := bind_eq_ok.mp h
  rw [foreignTokens]
  split_ifs with hoptions
  · rw [if_pos hoptions] at h
    cases h
    rw [quotePgIdentifier_eq_ok hquoted]
    simp [text]
  · rw [if_neg hoptions] at h
    obtain ⟨clause, hclause, h⟩ := bind_eq_ok.mp h
    cases h
    rw [quotePgIdentifier_eq_ok hquoted, optionsClause_eq_ok hclause]
    simp [text]

/-! ### Free text stays inside its quotes -/

theorem freeText_rereads :
    (∀ schema relation relkind column comment ddl,
      buildCommentDdl schema relation relkind column comment = .ok ddl →
        Rereads ddl (schema :: relation :: column.toList) [comment] ∧ EndsOnce ddl) ∧
    (∀ schema name labels ddl, buildEnumDdl schema name labels = .ok ddl →
      Rereads ddl [schema, name] labels ∧ EndsOnce ddl) ∧
    ∀ server options ddl, buildForeignSuffix server options = .ok ddl →
      Rereads ddl (server :: options.map optionKey) (options.map optionValue) ∧
        ∀ before after, ¬EndsBetween ddl before after := by
  refine ⟨fun schema relation relkind column comment ddl h => ?_,
    fun schema name labels ddl h => ?_, fun server options ddl h => ?_⟩
  · rw [buildCommentDdl_eq_ok h]
    exact (says_commentTokens schema relation relkind column comment).rereads_semicolon
  · rw [buildEnumDdl_eq_ok h]
    exact (says_enumTokens schema name labels).rereads_semicolon
  · have hsaid := says_foreignTokens server options
    rw [buildForeignSuffix_eq_ok h]
    exact ⟨hsaid.rereads, fun _ _ => hsaid.written.not_endsBetween hsaid.noEnd⟩

theorem freeText_rereads_quotes :
    (∃ ddl, buildCommentDdl "s" "t" "r" none "it's" = .ok ddl ∧
      Rereads ddl ["s", "t"] ["it's"] ∧ EndsOnce ddl) ∧
    (∃ ddl, buildEnumDdl "s" "mood" ["so;so"] = .ok ddl ∧
      Rereads ddl ["s", "mood"] ["so;so"] ∧ EndsOnce ddl) ∧
    ∃ ddl, buildForeignSuffix "srv" ["k=a=b"] = .ok ddl ∧ Rereads ddl ["srv", "k"] ["a=b"] := by
  obtain ⟨comment, hcomment⟩ : ∃ ddl, buildCommentDdl "s" "t" "r" none "it's" = .ok ddl :=
    exists_eq_ok_of_isOk (by decide +kernel)
  obtain ⟨enum, henum⟩ : ∃ ddl, buildEnumDdl "s" "mood" ["so;so"] = .ok ddl :=
    exists_eq_ok_of_isOk (by decide +kernel)
  obtain ⟨foreign, hforeign⟩ : ∃ ddl, buildForeignSuffix "srv" ["k=a=b"] = .ok ddl :=
    exists_eq_ok_of_isOk (by decide +kernel)
  exact ⟨⟨comment, hcomment, freeText_rereads.1 "s" "t" "r" none "it's" comment hcomment⟩,
    ⟨enum, henum, freeText_rereads.2.1 "s" "mood" ["so;so"] enum henum⟩,
    foreign, hforeign, (freeText_rereads.2.2 "srv" ["k=a=b"] foreign hforeign).1⟩

end TdExport.Postgres
