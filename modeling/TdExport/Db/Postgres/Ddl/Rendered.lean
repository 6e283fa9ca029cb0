import TdExport.Core.Fallible
import TdExport.Db.Postgres.Ddl.Basic

/-!
# The text of a table and its constraints

What a table and each of its constraints are to be written as, when no name is refused. The
statements of the builders are these texts.
-/

namespace TdExport.Postgres

open Core

/-! ### Texts -/

/-- The names in double quotes, with commas between them. -/
def namesText (names : List Str) : Str := ", ".toList.intercalate (names.map (quotedBy '"'))

/-- `"schema"."name"` -/
def relationText (schema name : Str) : Str := quotedBy '"' schema ++ "." ++ quotedBy '"' name

/-- What follows the name of a foreign key. -/
def foreignKeyText (columns : List Str) (fk : PgForeignKey) : Str :=
  "FOREIGN KEY (" ++ namesText columns ++ ") REFERENCES " ++
    relationText fk.refSchema fk.refTable ++ " (" ++ namesText fk.refColumns ++ ")" ++
    (fk.matchType.map (" MATCH ".toList ++ ·)).getD [] ++ " ON DELETE " ++ fk.onDelete ++
    " ON UPDATE " ++ fk.onUpdate ++ (fk.deferrable.map (" ".toList ++ ·)).getD []

/-- What follows the name of a constraint: the text of the catalog, else one made of its parts. -/
def definitionText (c : PgDdlConstraint) : Str :=
  c.definition.getD (match c.constraintType with
    | .primaryKey => "PRIMARY KEY (" ++ namesText c.columns ++ ")"
    | .unique => "UNIQUE (" ++ namesText c.columns ++ ")"
    | .check expression => "CHECK (" ++ expression ++ ")"
    | .exclude definition => definition
    | .notNull => "NOT NULL " ++ namesText c.columns
    | .foreignKey fk => foreignKeyText c.columns fk)

/-- `CONSTRAINT "name" definition` -/
def constraintText (c : PgDdlConstraint) : Str :=
  "CONSTRAINT " ++ quotedBy '"' c.name ++ " " ++ definitionText c

/-- `ALTER TABLE "schema"."table" ADD CONSTRAINT "name" definition;` -/
def alterText (schema table : Str) (c : PgDdlConstraint) : Str :=
  "ALTER TABLE " ++ relationText schema table ++ " ADD " ++ constraintText c ++ ";"

/-- The clause of a `NOT NULL` constraint in the entry of `column`; the name that the server gives
by itself is left out. -/
def notNullConstraintText (table column : Str) (c : PgDdlConstraint) : Str :=
  (if c.name = table ++ "_" ++ column ++ "_not_null" then []
    else " CONSTRAINT ".toList ++ quotedBy '"' c.name) ++ " NOT NULL" ++
    (if c.definition.any (fun d => " NO INHERIT".toList.isSuffixOf d) then " NO INHERIT".toList
      else [])

/-- The options of the sequence of an identity column. -/
def sequenceText (seq : PgIdentitySequence) : Str :=
  " (SEQUENCE NAME " ++ quotedBy '"' seq.schema ++ "." ++ quotedBy '"' seq.name ++
    " START WITH " ++ intStr seq.start ++ " INCREMENT BY " ++ intStr seq.increment ++
    " MINVALUE " ++ intStr seq.min ++ " MAXVALUE " ++ intStr seq.max ++ " CACHE " ++
    intStr seq.cache ++ (if seq.cycle then " CYCLE".toList else []) ++ ")"

/-- What makes a column an identity column. -/
def identityText (i : PgIdentity) : Str :=
  " GENERATED " ++ (if i.always then "ALWAYS".toList else "BY DEFAULT".toList) ++ " AS IDENTITY" ++
    i.sequence.elim [] sequenceText

/-- The expression of a generated column, or the default of another. -/
def valueText (col : PgDdlColumn) : Str :=
  match col.generated, col.defaultValue with
  | some (.stored expr), _ => " GENERATED ALWAYS AS (" ++ expr ++ ") STORED"
  | some (.virtual expr), _ => " GENERATED ALWAYS AS (" ++ expr ++ ") VIRTUAL"
  | none, some default => " DEFAULT " ++ default
  | none, none => []

/-- The entry of a column, with what it says about `NOT NULL`. -/
def columnText (col : PgDdlColumn) (notNull : Str) : Str :=
  "    " ++ quotedBy '"' col.name ++ " " ++ col.dataType ++ notNull ++
    col.identity.elim [] identityText ++ valueText col

/-- `CREATE TABLE` with its entries, and the statements of its indexes. -/
def tableText (schema table : Str) (options : TableOptions) (entries indexDefs : List Str) : Str :=
  (if options.foreign.isSome then "CREATE FOREIGN TABLE".toList else "CREATE TABLE") ++ " " ++
    relationText schema table ++ " (\n" ++ ",\n".toList.intercalate entries ++
    (match options.foreign, options.partitionKey with
      | some foreign, _ => "\n) " ++ foreign ++ ";\n"
      | none, some key => "\n) PARTITION BY " ++ key ++ ";\n"
      | none, none => "\n);\n") ++
    indexDefs.flatMap fun definition => definition ++ ";\n".toList

/-! ### The builders write them -/

variable {schema table relation text : Str}

lemma quoted_eq_ok {id : Str} (h : quoted id = .ok text) : text = quotedBy '"' id := by
  rw [quoted] at h
  cases hquote : quotePgIdentifier id with
  | error e =>
    rw [hquote] at h
    cases h
  | ok q =>
    rw [hquote] at h
    cases h
    exact quotePgIdentifier_eq_ok hquote

lemma quoteColumnList_eq_ok {names : List Str} (h : quoteColumnList names = .ok text) :
    text = namesText names := by
  obtain ⟨quotedNames, hquoted, h⟩ := bind_eq_ok.mp h
  cases h
  rw [eq_map_of_mapM_eq_ok (fun _ _ => quoted_eq_ok) hquoted, namesText]

lemma quotedRelation_eq_ok (h : quotedRelation schema table = .ok text) :
    text = relationText schema table := by
  obtain ⟨quotedSchema, quotedTable, hschema, htable, rfl⟩ := bind_pair_eq_ok.mp h
  rw [quoted_eq_ok hschema, quoted_eq_ok htable, relationText]

lemma body_eq_ok {c : PgDdlConstraint} (h : c.body (namesText c.columns) = .ok text) :
    text = definitionText c := by
  rw [PgDdlConstraint.body] at h
  rw [definitionText]
  cases hdefinition : c.definition with
  | some definition =>
    rw [hdefinition] at h
    exact (Except.ok.inj h).symm
  | none =>
    rw [hdefinition] at h
    rw [Option.getD_none]
    cases hkind : c.constraintType with
    | foreignKey fk =>
      rw [hkind] at h
      cases h
    | primaryKey | unique | check | exclude | notNull =>
      rw [hkind] at h
      exact (Except.ok.inj h).symm

lemma constraintClause_eq_ok {c : PgDdlConstraint} (h : c.constraintClause = .ok text) :
    text = constraintText c := by
  simp only [PgDdlConstraint.constraintClause, bind_eq_ok] at h
  obtain ⟨quotedName, hname, cols, hcols, body, hbody, htext⟩ := h
  rw [quoteColumnList_eq_ok hcols] at hbody
  rw [← Except.ok.inj htext, quoted_eq_ok hname, body_eq_ok hbody]
  rfl

lemma constraintEntry_eq_ok {c : PgDdlConstraint} (h : constraintEntry c = .ok text) :
    text = "    " ++ constraintText c := by
  simp only [constraintEntry, bind_eq_ok] at h
  obtain ⟨clause, hclause, htext⟩ := h
  rw [← Except.ok.inj htext, constraintClause_eq_ok hclause]

lemma checkStatement_eq_ok {c : PgDdlConstraint}
    (h : checkStatement (relationText schema table) c = .ok text) :
    text = alterText schema table c := by
  simp only [checkStatement, bind_eq_ok] at h
  obtain ⟨clause, hclause, htext⟩ := h
  rw [← Except.ok.inj htext, constraintClause_eq_ok hclause]
  rfl

/-- The name and the text of a constraint, taken apart. -/
lemma alterText_eq (schema table : Str) (c : PgDdlConstraint) :
    alterText schema table c = "ALTER TABLE " ++ relationText schema table ++
      " ADD CONSTRAINT " ++ quotedBy '"' c.name ++ " " ++ definitionText c ++ ";" := by
  have hadd : " ADD CONSTRAINT ".toList = " ADD ".toList ++ "CONSTRAINT ".toList := rfl
  change _ ++ _ ++ _ ++ (_ ++ _ ++ _ ++ _) ++ _ = _
  simp only [hadd, List.append_assoc]

lemma foreignKeyStatement_eq_ok {c : PgDdlConstraint} {fk : PgForeignKey}
    (hfk : c.foreignKey? = some fk)
    (h : foreignKeyStatement (relationText schema table) c fk = .ok text) :
    text = alterText schema table c := by
  simp only [foreignKeyStatement, bind_eq_ok] at h
  obtain ⟨quotedName, hname, cols, hcols, ref, href, refCols, hrefCols, htext⟩ := h
  have hkind : c.constraintType = .foreignKey fk := by
    rw [PgDdlConstraint.foreignKey?] at hfk
    split at hfk <;> simp_all
  have hdefinition : definitionText c = c.definition.getD (foreignKeyText c.columns fk) := by
    rw [definitionText, hkind]
  rw [← Except.ok.inj htext, quoted_eq_ok hname, quoteColumnList_eq_ok hcols,
    quotedRelation_eq_ok href, quoteColumnList_eq_ok hrefCols, alterText_eq, hdefinition]
  cases c.definition with
  | some definition => rfl
  | none => rfl

lemma notNullName_eq_ok {column : Str} {c : PgDdlConstraint}
    (h : notNullName table column c = .ok text) :
    text = if c.name = table ++ "_" ++ column ++ "_not_null" then []
      else " CONSTRAINT ".toList ++ quotedBy '"' c.name := by
  rw [notNullName] at h
  split_ifs at h ⊢
  · exact (Except.ok.inj h).symm
  · obtain ⟨quotedName, hname, htext⟩ := bind_eq_ok.mp h
    rw [← Except.ok.inj htext, quoted_eq_ok hname]

lemma notNullClause_eq_ok {column : Str} {c : PgDdlConstraint}
    (h : notNullClause table column c = .ok text) :
    text = notNullConstraintText table column c := by
  simp only [notNullClause, bind_eq_ok] at h
  obtain ⟨name, hname, htext⟩ := h
  rw [← Except.ok.inj htext, notNullName_eq_ok hname, notNullConstraintText]

lemma options_eq_ok {seq : PgIdentitySequence} (h : seq.options = .ok text) :
    text = sequenceText seq := by
  simp only [PgIdentitySequence.options, bind_eq_ok] at h
  obtain ⟨quotedSchema, hschema, quotedName, hname, htext⟩ := h
  rw [← Except.ok.inj htext, quoted_eq_ok hschema, quoted_eq_ok hname]
  rfl

lemma toSql_eq_ok {i : PgIdentity} (h : i.toSql = .ok text) : text = identityText i := by
  simp only [PgIdentity.toSql, bind_eq_ok] at h
  obtain ⟨options, hoptions, htext⟩ := h
  rw [← Except.ok.inj htext]
  change _ = _ ++ i.sequence.elim [] sequenceText
  cases hsequence : i.sequence with
  | none =>
    rw [hsequence] at hoptions
    rw [← Except.ok.inj hoptions]
    rfl
  | some seq =>
    rw [hsequence] at hoptions
    rw [options_eq_ok hoptions]
    rfl

lemma identityClause_eq_ok {col : PgDdlColumn} (h : identityClause col = .ok text) :
    text = col.identity.elim [] identityText := by
  rw [identityClause] at h
  cases hidentity : col.identity with
  | none =>
    rw [hidentity] at h
    exact (Except.ok.inj h).symm
  | some i =>
    rw [hidentity] at h
    exact toSql_eq_ok h

lemma columnValue_eq (col : PgDdlColumn) : columnValue col = valueText col := by
  rw [columnValue, valueText]
  cases col.generated with
  | none => cases col.defaultValue <;> rfl
  | some generated => cases generated <;> rfl

lemma columnDef_eq (col : PgDdlColumn) (notNull : Str) :
    columnDef col (quotedBy '"' col.name) notNull (col.identity.elim [] identityText) =
      columnText col notNull := by
  exact congrArg (_ ++ ·) (columnValue_eq col)

end TdExport.Postgres
