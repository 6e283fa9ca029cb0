import TdExport.Core.Quoted
import TdExport.Db.Postgres.Parse.Definition
import TdExport.Db.Postgres.Partition.Basic

/-!
# The `ONLY` of a partitioned index

PostgreSQL prints the index of a partitioned table with `ON ONLY`. `without_on_only` takes the
`ONLY` from the statement, and not from a name or a literal.
-/

namespace TdExport.Postgres

open Core

/-! ### The scan -/

/-- The quotation marks of a definition. -/
def quoteMarks : List Char := ['"', '\'']

lemma quoteAfter_eq (quote : Option Char) (c : Char) :
    quoteAfter quote c = markAfter quoteMarks quote c := by
  cases quote with
  | some q => rfl
  | none => simp [quoteAfter, markAfter, quoteMarks]

/-- What is not found is copied. -/
lemma withoutOnOnlyFrom_cons {quote : Option Char} {c : Char} {s : Str}
    (h : quote = none → ¬ " ON ONLY ".toList <+: c :: s) :
    withoutOnOnlyFrom quote (c :: s) = c :: withoutOnOnlyFrom (quoteAfter quote c) s := by
  rw [withoutOnOnlyFrom, if_neg (not_and.mpr h)]

lemma withoutOnOnlyFrom_none_of_ne {c : Char} (hc : c ≠ ' ') (s : Str) :
    withoutOnOnlyFrom none (c :: s) = c :: withoutOnOnlyFrom (quoteAfter none c) s := by
  refine withoutOnOnlyFrom_cons fun _ h => hc ?_
  exact (List.cons_prefix_cons.mp h).1.symm

lemma withoutOnOnlyFrom_some (q c : Char) (s : Str) :
    withoutOnOnlyFrom (some q) (c :: s) = c :: withoutOnOnlyFrom (quoteAfter (some q) c) s :=
  withoutOnOnlyFrom_cons fun h => absurd h (Option.some_ne_none q)

/-- The first occurrence outside quotes is replaced, and nothing behind it. -/
lemma withoutOnOnlyFrom_onOnly (rest : Str) :
    withoutOnOnlyFrom none (" ON ONLY " ++ rest) = " ON " ++ rest := by
  show withoutOnOnlyFrom none (' ' :: ("ON ONLY ".toList ++ rest)) = _
  rw [withoutOnOnlyFrom, if_pos ⟨rfl, List.prefix_append " ON ONLY ".toList rest⟩]
  rfl

/-- Text without quotation marks and spaces is copied. -/
lemma withoutOnOnlyFrom_word {s : Str} (h : ∀ c ∈ s, c ≠ '"' ∧ c ≠ '\'' ∧ c ≠ ' ') (t : Str) :
    withoutOnOnlyFrom none (s ++ t) = s ++ withoutOnOnlyFrom none t := by
  induction s with
  | nil => rfl
  | cons c s ih =>
    obtain ⟨⟨hdouble, hsingle, hspace⟩, hs⟩ := List.forall_mem_cons.mp h
    have hquote : quoteAfter none c = none := if_neg (not_or.mpr ⟨hdouble, hsingle⟩)
    rw [List.cons_append, withoutOnOnlyFrom_none_of_ne hspace, hquote, ih hs]
    rfl

/-- A space is copied unless `ON ONLY` follows it. -/
lemma withoutOnOnlyFrom_space {s : Str} (h : ¬ "ON ONLY ".toList <+: s) :
    withoutOnOnlyFrom none (' ' :: s) = ' ' :: withoutOnOnlyFrom none s :=
  withoutOnOnlyFrom_cons fun _ hpre => h (List.cons_prefix_cons.mp hpre).2

/-- The inside of a quoted name is copied up to the mark that closes it. -/
lemma withoutOnOnlyFrom_doubled (id t : Str) :
    withoutOnOnlyFrom (some '"') (doubled '"' id ++ '"' :: t) =
      doubled '"' id ++ '"' :: withoutOnOnlyFrom none t := by
  induction id with
  | nil => exact withoutOnOnlyFrom_some '"' '"' t
  | cons c id ih =>
    by_cases hc : c = '"'
    · have hopen : quoteAfter none '"' = some '"' := rfl
      have hclose : quoteAfter (some '"') '"' = none := rfl
      rw [hc, doubled_cons_self, List.cons_append, List.cons_append, withoutOnOnlyFrom_some,
        hclose, withoutOnOnlyFrom_none_of_ne (by decide), hopen, ih]
      rfl
    · have hstay : quoteAfter (some '"') c = some '"' := if_neg hc
      rw [doubled_cons_of_ne hc, List.cons_append, withoutOnOnlyFrom_some, hstay, ih]
      rfl

lemma withoutOnOnlyFrom_quotedBy (id t : Str) :
    withoutOnOnlyFrom none (quotedBy '"' id ++ t) =
      quotedBy '"' id ++ withoutOnOnlyFrom none t := by
  have hopen : quoteAfter none '"' = some '"' := rfl
  rw [quotedBy, List.cons_append, List.append_assoc, List.singleton_append,
    withoutOnOnlyFrom_none_of_ne (by decide), hopen, withoutOnOnlyFrom_doubled]
  simp

/-- A text in which the scan finds nothing outside quotes stays as it is. -/
lemma withoutOnOnlyFrom_eq_self {quote : Option Char} {s : Str}
    (h : ∀ pre post, s = pre ++ " ON ONLY ".toList ++ post → pre.foldl quoteAfter quote ≠ none) :
    withoutOnOnlyFrom quote s = s := by
  induction s generalizing quote with
  | nil => rfl
  | cons c s ih =>
    rw [withoutOnOnlyFrom_cons, ih]
    · intro pre post hs
      exact h (c :: pre) post (congrArg (c :: ·) hs)
    · rintro hquote ⟨post, hpost⟩
      exact h [] post hpost.symm hquote

/-! ### The statement -/

/-- The name of an index, as PostgreSQL prints it. -/
inductive IsIndexName : Str → Prop
  | bare {name} : (∀ c ∈ name, c ≠ '"' ∧ c ≠ '\'' ∧ c ≠ ' ') → IsIndexName name
  | quoted (id : Str) : IsIndexName (quotedBy '"' id)

/-- `CREATE [UNIQUE ]INDEX `. -/
def createIndex (unique : Bool) : Str :=
  "CREATE " ++ (if unique then "UNIQUE ".toList else []) ++ "INDEX "

/-- The keywords before the name are copied; the space behind them is the last one. -/
lemma withoutOnOnlyFrom_createIndex (unique : Bool) {s : Str} (h : ¬ "ON ONLY ".toList <+: s) :
    withoutOnOnlyFrom none (createIndex unique ++ s) =
      createIndex unique ++ withoutOnOnlyFrom none s := by
  have hindex : withoutOnOnlyFrom none ("INDEX".toList ++ ' ' :: s) =
      "INDEX".toList ++ ' ' :: withoutOnOnlyFrom none s := by
    rw [withoutOnOnlyFrom_word (by simp), withoutOnOnlyFrom_space h]
  cases unique with
  | false =>
    show withoutOnOnlyFrom none ("CREATE".toList ++ ' ' :: ("INDEX".toList ++ ' ' :: s)) = _
    rw [withoutOnOnlyFrom_word (by simp), withoutOnOnlyFrom_space (by simp), hindex]
    rfl
  | true =>
    show withoutOnOnlyFrom none
      ("CREATE".toList ++ ' ' :: ("UNIQUE".toList ++ ' ' :: ("INDEX".toList ++ ' ' :: s))) = _
    rw [withoutOnOnlyFrom_word (by simp), withoutOnOnlyFrom_space (by simp),
      withoutOnOnlyFrom_word (by simp), withoutOnOnlyFrom_space (by simp), hindex]
    rfl

/-- Even an index with the name `ON` does not look like the pattern. -/
lemma IsIndexName.not_prefix {name : Str} (h : IsIndexName name) (rest : Str) :
    ¬ "ON ONLY ".toList <+: name ++ (" ON ONLY ".toList ++ rest) := by
  cases h with
  | quoted id => simp [quotedBy]
  | bare hname =>
    -- the third letter of the pattern is a space, and a name `ON` is followed by ` ON`
    rcases name with _ | ⟨a, _ | ⟨b, _ | ⟨c, name⟩⟩⟩
    · simp
    · simp
    · simp
    · have hc : c ≠ ' ' := (hname c (by simp)).2.2
      simp [hc.symm]

lemma IsIndexName.copied {name : Str} (h : IsIndexName name) (t : Str) :
    withoutOnOnlyFrom none (name ++ t) = name ++ withoutOnOnlyFrom none t := by
  cases h with
  | bare hname => exact withoutOnOnlyFrom_word hname t
  | quoted id => exact withoutOnOnlyFrom_quotedBy id t

/-- The `ONLY` behind the name is taken away, whatever the name is. -/
lemma withoutOnOnly_onOnly (unique : Bool) {name : Str} (hname : IsIndexName name) (rest : Str) :
    withoutOnOnly (createIndex unique ++ name ++ " ON ONLY " ++ rest) =
      createIndex unique ++ name ++ " ON " ++ rest := by
  rw [withoutOnOnly, List.append_assoc, List.append_assoc,
    withoutOnOnlyFrom_createIndex unique (hname.not_prefix rest), hname.copied,
    withoutOnOnlyFrom_onOnly, List.append_assoc, List.append_assoc]

/-- The statement loses its `ONLY`; a definition with ` ON ONLY ` in quotes only stays as it is. -/
theorem withoutOnOnly_spec :
    (∀ unique name rest, IsIndexName name →
      withoutOnOnly (createIndex unique ++ name ++ " ON ONLY " ++ rest) =
        createIndex unique ++ name ++ " ON " ++ rest) ∧
    ∀ indexdef, (∀ pre post, indexdef = pre ++ " ON ONLY ".toList ++ post →
        InQuotes quoteMarks " ON ONLY " indexdef pre) →
      withoutOnOnly indexdef = indexdef := by
  constructor
  · exact fun unique name rest hname => withoutOnOnly_onOnly unique hname rest
  · intro indexdef h
    refine withoutOnOnlyFrom_eq_self fun pre post hpre => ?_
    have hopen := (h pre post hpre).foldl_markAfter
    rwa [← funext₂ quoteAfter_eq] at hopen

/-- The text occurs in quotes only. -/
lemma inQuotes_quotedOnOnly {pre post : Str}
    (h : "CREATE INDEX i ON t ((' ON ONLY '))".toList = pre ++ " ON ONLY ".toList ++ post) :
    InQuotes quoteMarks " ON ONLY " "CREATE INDEX i ON t ((' ON ONLY '))" pre := by
  have hlen : pre.length = 23 := by
    have hat : " ON ONLY ".toList <+:
        ("CREATE INDEX i ON t ((' ON ONLY '))".toList).drop pre.length := by
      rw [h, List.append_assoc, List.drop_left]
      exact List.prefix_append _ _
    have hle : pre.length < 36 := by
      have := congrArg List.length h
      simp at this
      omega
    have hall : ∀ i < 36, " ON ONLY ".toList <+:
        ("CREATE INDEX i ON t ((' ON ONLY '))".toList).drop i → i = 23 := by decide +kernel
    exact hall _ hle hat
  have hpre : pre = "CREATE INDEX i ON t (('".toList := by
    have htake := congrArg (List.take 23) h
    rw [List.append_assoc, List.take_left' hlen] at htake
    exact htake.symm
  refine ⟨'\'', by simp [quoteMarks], "CREATE INDEX i ON t ((", [], [], "))", ?_, rfl, hpre⟩
  exact .of_forall (by simp [quoteMarks])

/-- A name, and a literal, that contain the text. -/
theorem withoutOnOnly_spec_quoted :
    withoutOnOnly "CREATE UNIQUE INDEX \"x ON ONLY y\" ON ONLY a.t USING btree (id)" =
      "CREATE UNIQUE INDEX \"x ON ONLY y\" ON a.t USING btree (id)" ∧
    withoutOnOnly "CREATE INDEX i ON t ((' ON ONLY '))" =
      "CREATE INDEX i ON t ((' ON ONLY '))" := by
  have hname : quotedBy '"' "x ON ONLY y".toList = "\"x ON ONLY y\"".toList := by decide
  have h := withoutOnOnly_spec.1 true _ "a.t USING btree (id)" (.quoted "x ON ONLY y")
  rw [hname] at h
  exact ⟨h, withoutOnOnly_spec.2 _ fun _ _ => inQuotes_quotedOnOnly⟩

/-! ### The definition of an index -/

/-- What stands behind the table of an index. -/
def IndexDef.tail (d : IndexDef) : Str :=
  " " ++ "USING " ++ d.method ++ " (" ++ d.keyText ++ ")" ++ d.whereText

lemma IndexDef.text_eq (d : IndexDef) :
    d.text = createIndex d.unique ++ d.name ++ " ON " ++
      ((if d.only then "ONLY ".toList else []) ++ (d.relation ++ d.tail)) := by
  unfold text before createIndex tail
  simp only [List.append_assoc]

/-- The index of a partitioned table becomes an index of the table and of its partitions; nothing
else of its definition changes. -/
theorem IndexDef.withoutOnOnly_text {d : IndexDef} (hname : IsIndexName d.name)
    (honly : d.only = true) : withoutOnOnly d.text = { d with only := false }.text := by
  have hsource : d.text =
      createIndex d.unique ++ d.name ++ " ON ONLY ".toList ++ (d.relation ++ d.tail) := by
    rw [text_eq, honly, if_pos rfl, List.append_assoc _ " ON ".toList,
      List.append_assoc _ " ON ONLY ".toList]
    rfl
  have htarget : { d with only := false }.text =
      createIndex d.unique ++ d.name ++ " ON ".toList ++ (d.relation ++ d.tail) := by
    rw [text_eq]
    rfl
  rw [hsource, htarget, withoutOnOnly_onOnly d.unique hname]

end TdExport.Postgres
