import TdExport.Db.MySql.Defaults
import TdExport.Db.MySql.Fetch

/-!
# The definitions of a MySQL schema

A table or a view has the statement that the server shows. Every routine whose statement the server
shows has its block, in the order of the list; every other one is reported once and costs nothing
but itself.
-/

namespace TdExport.MySql

open Core

section Fetched

variable {σ : Type} (server : MySqlServer σ) (skipDefiner : Bool) (schema : Str)

/-- The statement as it is written. -/
def writtenAs (create : Str) : Str :=
  if skipDefiner then (withoutDefiner create).getD create else create

/-- What the server shows of a table or a view, asked from within its schema. -/
def ShowsTable (table : Str) (row : ShowRow) : Prop :=
  (quoteIdentifier schema).isOk = true ∧ (quoteIdentifier table).isOk = true ∧
    server.use ("USE " ++ quotedBy '`' schema) = .ok () ∧
    server.showCreate (some (quotedBy '`' schema)) ("SHOW CREATE TABLE " ++ quotedBy '`' schema ++
      "." ++ quotedBy '`' table) = .ok row

/-- The query for the statement of a routine, given by its kind and its name. -/
def showCreateText (r : Str × Str) : Str :=
  "SHOW CREATE " ++ (if r.1 = "FUNCTION".toList then "FUNCTION".toList else "PROCEDURE") ++ " " ++
    quotedBy '`' schema ++ "." ++ quotedBy '`' r.2

/-- The column of the statement in the answer. -/
def createColumn (r : Str × Str) : Str :=
  if r.1 = "FUNCTION".toList then "Create Function" else "Create Procedure"

/-- The statement of a routine with its mode, when its name can be quoted and the server shows the
statement. -/
def shown (r : Str × Str) : Option (Str × Str) :=
  if (quoteIdentifier schema).isOk && (quoteIdentifier r.2).isOk then
    (server.showCreate none (showCreateText schema r)).toOption.bind fun row =>
      (row (createColumn r)).map fun create => (create, (row "sql_mode").getD [])
  else none

/-- The statement is to be written without its definer, and none is found. -/
def keepsDefiner (p : Str × Str) : Bool := skipDefiner && (withoutDefiner p.1).isNone

/-- The block of a routine: its statement between lines that set its mode, in a literal, and give
the mode back. -/
def IsBlock (p : Str × Str) (block : Str) : Prop :=
  ∃ literal, decodeLiteral literal = some p.2 ∧ block =
    "SET @OLD_ROUTINE_SQL_MODE = @@SQL_MODE, SQL_MODE = " ++ literal ++ ";\n" ++
      "DELIMITER ;;\n" ++ writtenAs skipDefiner p.1 ++ ";;\nDELIMITER ;\n" ++
      "SET SQL_MODE = @OLD_ROUTINE_SQL_MODE;"

variable {server skipDefiner schema} {display : MySqlError σ → Str} {kind name : Str}

lemma definerPolicy_eq (skipDefiner : Bool) (schema name create : Str) :
    ∃ ws : List (Warning (MySqlError σ)), definerPolicy skipDefiner schema name create =
        ⟨ws, .ok (writtenAs skipDefiner create)⟩ ∧
      ws.length = if skipDefiner && (withoutDefiner create).isNone then 1 else 0 := by
  cases skipDefiner with
  | false => exact ⟨[], rfl, rfl⟩
  | true =>
    rw [definerPolicy, writtenAs]
    cases withoutDefiner create with
    | none => exact ⟨_, rfl, rfl⟩
    | some ddl => exact ⟨[], rfl, rfl⟩

lemma result_definerPolicy (name create : Str) :
    (definerPolicy skipDefiner schema name create : Answer (MySqlError σ) Str).result =
      .ok (writtenAs skipDefiner create) := by
  obtain ⟨ws, h, -⟩ := definerPolicy_eq (σ := σ) skipDefiner schema name create
  rw [h]

lemma gives_quoted {id : Str} (h : (quoteIdentifier id).isOk = true) :
    (quoted id : Answer (MySqlError σ) Str).Gives (quotedBy '`' id) := by
  obtain ⟨quotedId, hquoted⟩ := exists_eq_ok_of_isOk h
  rw [quoted, hquoted, quoteIdentifier_eq_ok hquoted]
  rfl

lemma result_quoted_eq_ok {id q : Str} :
    (quoted id : Answer (MySqlError σ) Str).result = .ok q ↔
      (quoteIdentifier id).isOk = true ∧ q = quotedBy '`' id := by
  cases hquoted : quoteIdentifier id with
  | error e =>
    refine iff_of_false (fun h => ?_) (fun h => Bool.noConfusion h.1)
    rw [quoted, hquoted] at h
    cases h
  | ok quotedId =>
    have hok : (quoteIdentifier id).isOk = true := by rw [hquoted]; rfl
    have hgives := gives_quoted (σ := σ) hok
    rw [show (quoted id : Answer (MySqlError σ) Str) = _ from hgives]
    exact ⟨fun h => ⟨rfl, (Except.ok.inj h).symm⟩, fun h => by rw [h.2]⟩

lemma result_query_eq_ok {α : Type} {table : Str} {answer : Except σ α} {a : α} :
    (query schema table answer).result = .ok a ↔ answer = .ok a := by
  cases answer with
  | error e => exact iff_of_false (fun h => by cases h) fun h => by cases h
  | ok b => exact ⟨fun h => congrArg _ (Except.ok.inj h), fun h => congrArg _ (Except.ok.inj h)⟩

/-! ### Tables and views -/

lemma result_showCreate_eq_ok {table : Str} {row : ShowRow} :
    (showCreate server schema table).result = .ok row ↔ ShowsTable server schema table row := by
  simp only [showCreate, Answer.result_bind, bind_eq_ok, result_quoted_eq_ok, result_query_eq_ok,
    ShowsTable]
  constructor
  · rintro ⟨_, ⟨hschema, rfl⟩, _, ⟨htable, rfl⟩, _, huse, hrow⟩
    exact ⟨hschema, htable, huse, hrow⟩
  · rintro ⟨hschema, htable, huse, hrow⟩
    exact ⟨_, ⟨hschema, rfl⟩, _, ⟨htable, rfl⟩, (), huse, hrow⟩

/-- A table has the statement of its column, and a view that of the other one. -/
lemma result_getTableDdl_eq_ok {table : Str} {ddl : TableDdl} :
    (getTableDdl server skipDefiner schema table).result = .ok ddl ↔
      ∃ row create, ShowsTable server schema table row ∧ ddl = { create } ∧
        (row "Create Table" = some create ∨ row "Create Table" = none ∧
          ∃ view, row "Create View" = some view ∧ create = writtenAs skipDefiner view) := by
  simp only [getTableDdl, Answer.result_bind, bind_eq_ok, result_showCreate_eq_ok]
  refine exists_congr fun row => ?_
  rw [exists_and_left]
  refine and_congr_right fun _ => ?_
  cases htable : row "Create Table" with
  | some create => simp [eq_comm]
  | none =>
    cases hview : row "Create View" with
    | none =>
      refine iff_of_false (fun h => by cases h) ?_
      rintro ⟨_, -, h | ⟨-, _, h, -⟩⟩ <;> cases h
    | some view =>
      simp [result_definerPolicy, eq_comm, bind]

/-! ### Routines -/

lemma routineKind_eq (r : Str × Str) : routineKind r.1 =
    (if r.1 = "FUNCTION".toList then "FUNCTION".toList else "PROCEDURE", createColumn r) := by
  rw [routineKind, createColumn]
  split_ifs <;> rfl

/-- With names that can be quoted, it is the answer of the server that counts. -/
lemma routineDdl_of_isOk (server : MySqlServer σ) (skipDefiner : Bool) {r : Str × Str}
    (hschema : (quoteIdentifier schema).isOk = true)
    (hname : (quoteIdentifier r.2).isOk = true) :
    routineDdl server skipDefiner schema r.1 r.2 =
      query schema r.2 (server.showCreate none (showCreateText schema r)) >>= fun row =>
        match row (createColumn r) with
        | none => return none
        | some create => do
          let create ← definerPolicy skipDefiner schema r.2 create
          return some (routineBlock create ((row "sql_mode").getD [])) := by
  rw [routineDdl, (gives_quoted hschema).bind, (gives_quoted hname).bind, routineKind_eq]
  rfl

/-- Nothing is reported on the way to a block, but for a definer that stays. -/
lemma routineDdl_of_shown (skipDefiner : Bool) {r p : Str × Str}
    (h : shown server schema r = some p) :
    ∃ block ws, routineDdl server skipDefiner schema r.1 r.2 = ⟨ws, .ok (some block)⟩ ∧
      IsBlock skipDefiner p block ∧ ws.length = if keepsDefiner skipDefiner p then 1 else 0 := by
  rw [shown] at h
  split_ifs at h with hnames
  obtain ⟨hschema, hname⟩ := Bool.and_eq_true_iff.mp hnames
  obtain ⟨row, hrow, h⟩ := Option.bind_eq_some_iff.mp h
  obtain ⟨create, hcreate, rfl⟩ := Option.map_eq_some_iff.mp h
  obtain ⟨ws, hpolicy, hws⟩ := definerPolicy_eq (σ := σ) skipDefiner schema r.2 create
  have hquery :
      (query schema r.2 (server.showCreate none (showCreateText schema r))).Gives row := by
    cases hanswer : server.showCreate none (showCreateText schema r) with
    | error e =>
      rw [hanswer] at hrow
      cases hrow
    | ok row' =>
      rw [hanswer] at hrow
      cases hrow
      rfl
  refine ⟨_, ws, ?_, ⟨_, decodeLiteral_quoteStringLiteral _, rfl⟩, hws⟩
  rw [routineDdl_of_isOk server skipDefiner hschema hname, hquery.bind, hcreate]
  change definerPolicy skipDefiner schema r.2 create >>= _ = _
  rw [hpolicy, Answer.bind_of_ok rfl]
  exact congrArg₂ Answer.mk (List.append_nil ws) rfl

/-- No other routine has a block, and nothing is reported on the way. -/
lemma routineDdl_of_not_shown (skipDefiner : Bool) {r : Str × Str}
    (h : shown server schema r = none) :
    routineDdl server skipDefiner schema r.1 r.2 = ⟨[], .ok none⟩ ∨
      ∃ e, routineDdl server skipDefiner schema r.1 r.2 = ⟨[], .error e⟩ := by
  cases hschema : quoteIdentifier schema with
  | error e =>
    have hquoted : (quoted schema : Answer (MySqlError σ) Str) = ⟨[], .error (.identifier e)⟩ := by
      rw [quoted, hschema]
      rfl
    exact .inr ⟨_, by rw [routineDdl, hquoted]; rfl⟩
  | ok quotedSchema =>
    have hschema : (quoteIdentifier schema).isOk = true := by rw [hschema]; rfl
    cases hname : quoteIdentifier r.2 with
    | error e =>
      have hquoted : (quoted r.2 : Answer (MySqlError σ) Str) = ⟨[], .error (.identifier e)⟩ := by
        rw [quoted, hname]
        rfl
      exact .inr ⟨_, by rw [routineDdl, (gives_quoted hschema).bind, hquoted]; rfl⟩
    | ok quotedName =>
      have hname : (quoteIdentifier r.2).isOk = true := by rw [hname]; rfl
      have hddl := routineDdl_of_isOk server skipDefiner hschema hname
      rw [shown, if_pos (Bool.and_eq_true_iff.mpr ⟨hschema, hname⟩)] at h
      cases hanswer : server.showCreate none (showCreateText schema r) with
      | error e => exact .inr ⟨_, by rw [hddl, hanswer]; rfl⟩
      | ok row =>
        rw [hanswer] at h
        have hcolumn : row (createColumn r) = none := Option.map_eq_none_iff.mp h
        have hquery : (query schema r.2 (.ok row) : Answer (MySqlError σ) ShowRow).Gives row := rfl
        exact .inl (by rw [hddl, hanswer, hquery.bind, hcolumn]; rfl)

/-- One turn of the loop over the routines. -/
lemma exists_tryRoutine (server : MySqlServer σ) (skipDefiner : Bool)
    (display : MySqlError σ → Str) (schema : Str) (r : Str × Str) :
    ∃ statement, (tryRoutine server skipDefiner display schema r.1 r.2).result = .ok statement ∧
      Option.Rel (IsBlock skipDefiner) (shown server schema r) statement ∧
      (tryRoutine server skipDefiner display schema r.1 r.2).warnings.length =
        if (shown server schema r).all (keepsDefiner skipDefiner) then 1 else 0 := by
  cases hshown : shown server schema r with
  | some p =>
    obtain ⟨block, ws, hddl, hblock, hws⟩ := routineDdl_of_shown skipDefiner hshown
    refine ⟨some block, ?_, .some hblock, ?_⟩
    · rw [tryRoutine, hddl]
    · rw [tryRoutine, hddl]
      exact hws
  | none =>
    rcases routineDdl_of_not_shown skipDefiner hshown with hddl | ⟨e, hddl⟩
    · exact ⟨none, by rw [tryRoutine, hddl], .none, by rw [tryRoutine, hddl]; rfl⟩
    · exact ⟨none, by rw [tryRoutine, hddl], .none, by rw [tryRoutine, hddl]; rfl⟩

/-- A relation has the statement that the server shows. The routines of a schema cannot be fetched
exactly when they cannot be listed; otherwise every routine whose statement is shown has its block,
in the order of the list, and there is one warning for each other routine and for each definer that
stays. -/
theorem ddl_shown (server : MySqlServer σ) (skipDefiner : Bool) (display : MySqlError σ → Str)
    (schema : Str) :
    (∀ table ddl, (getTableDdl server skipDefiner schema table).result = .ok ddl ↔
      ∃ row create, ShowsTable server schema table row ∧ ddl = { create } ∧
        (row "Create Table" = some create ∨ row "Create Table" = none ∧
          ∃ view, row "Create View" = some view ∧ create = writtenAs skipDefiner view)) ∧
    (∀ e, server.routines schema = .error e →
      getSchemaDdl server skipDefiner display schema =
        ⟨[], .error (.metadataQuery schema "ROUTINES" e)⟩) ∧
    ∀ routines, server.routines schema = .ok routines → ∃ blocks,
      (getSchemaDdl server skipDefiner display schema).result =
        .ok { before := blocks, afterTables := [] } ∧
      List.Forall₂ (IsBlock skipDefiner) (routines.filterMap (shown server schema)) blocks ∧
      (getSchemaDdl server skipDefiner display schema).warnings.length =
        (routines.filter fun r =>
          (shown server schema r).all (keepsDefiner skipDefiner)).length := by
  refine ⟨fun table ddl => result_getTableDdl_eq_ok, ?_, ?_⟩
  · intro e he
    rw [getSchemaDdl, he]
    rfl
  · intro routines hroutines
    choose statement hresult hblock hwarnings using
      exists_tryRoutine server skipDefiner display schema
    have hquery : (query schema "ROUTINES" (server.routines schema)).Gives routines := by
      rw [hroutines]
      rfl
    have hloop := Answer.mapM_of_ok hresult routines
    refine ⟨routines.filterMap statement, ?_, forall₂_filterMap hblock routines, ?_⟩
    · rw [getSchemaDdl, hquery.bind, hloop]
      exact congrArg (fun blocks => Except.ok (SchemaDdl.mk blocks [])) List.filterMap_map
    · rw [getSchemaDdl, hquery.bind, hloop, ← length_flatMap_of_ite hwarnings]
      exact congrArg List.length (List.append_nil _)

end Fetched

/-- A server with a function and a procedure whose statement may not be read. -/
def twoRoutines : MySqlServer Unit where
  routines _ := .ok [("FUNCTION", "f"), ("PROCEDURE", "p")]
  use _ := .ok ()
  showCreate _ query := .ok fun column =>
    if query = "SHOW CREATE FUNCTION `s`.`f`".toList ∧ column = "Create Function".toList then
      some "CREATE FUNCTION `f`() RETURNS int RETURN 1"
    else none

theorem ddl_shown_two :
    (getSchemaDdl twoRoutines false (fun _ => []) "s").warnings.length = 1 ∧
      ∃ block, (getSchemaDdl twoRoutines false (fun _ => []) "s").result =
          .ok { before := [block], afterTables := [] } ∧
        IsBlock false ("CREATE FUNCTION `f`() RETURNS int RETURN 1", []) block := by
  have hshown : [("FUNCTION".toList, "f".toList), ("PROCEDURE", "p")].filterMap
      (shown twoRoutines "s") = [("CREATE FUNCTION `f`() RETURNS int RETURN 1".toList, [])] := by
    decide +kernel
  obtain ⟨blocks, hresult, hblocks, hwarnings⟩ :=
    (ddl_shown twoRoutines false (fun _ => []) "s").2.2 _ rfl
  rw [hshown] at hblocks
  obtain ⟨block, rest, hblock, hrest, rfl⟩ := List.forall₂_cons_left_iff.mp hblocks
  obtain rfl := List.forall₂_nil_left_iff.mp hrest
  exact ⟨hwarnings.trans (by decide +kernel), block, hresult, hblock⟩

end TdExport.MySql
