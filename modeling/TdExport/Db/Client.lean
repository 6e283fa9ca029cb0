import TdExport.Run.Warnings

/-!
# The database client

The trait `DbClient` of `db/mod.rs`. The database does not change during a run: a client is what it
answers to each query.
-/

namespace TdExport

open Core

/-- The statements of a table: `CREATE`, those that are run after all tables, and those that refer
to other schemas. -/
structure TableDdl where
  create : Str
  after : List Str := []
  crossSchema : List Str := []
  deriving DecidableEq, Repr

/-- The schemas of a run: the keys of a `HashMap`, whose values nothing reads. -/
structure SchemaCatalog where
  keys : List Str
  nodup : keys.Nodup

/-- The end of a query, and the warnings on the way to it. -/
structure Answer (ε α : Type) where
  warnings : List (Warning ε) := []
  result : Except ε α

namespace Answer

variable {ε α β : Type}

/-- Nothing went wrong on the way to `a`. -/
def Gives (x : Answer ε α) (a : α) : Prop := x = ⟨[], .ok a⟩

def warn (w : Warning ε) : Answer ε Unit := ⟨[w], .ok ()⟩

def ofExcept (x : Except ε α) : Answer ε α := { result := x }

/-- An error ends what follows. -/
instance : Monad (Answer ε) where
  pure a := { result := .ok a }
  bind x f :=
    match x.result with
    | .ok a => ⟨x.warnings ++ (f a).warnings, (f a).result⟩
    | .error e => ⟨x.warnings, .error e⟩

lemma bind_of_ok {x : Answer ε α} {a : α} (h : x.result = .ok a) (f : α → Answer ε β) :
    (x >>= f) = ⟨x.warnings ++ (f a).warnings, (f a).result⟩ := by
  change (match x.result with | .ok a => _ | .error e => _) = _
  rw [h]

lemma bind_of_error {x : Answer ε α} {e : ε} (h : x.result = .error e) (f : α → Answer ε β) :
    (x >>= f) = ⟨x.warnings, .error e⟩ := by
  change (match x.result with | .ok a => _ | .error e => _) = _
  rw [h]

lemma id_map (x : Answer ε α) : id <$> x = x := by
  obtain ⟨ws, r⟩ := x
  cases r with
  | ok a =>
    change (⟨ws ++ [], .ok a⟩ : Answer ε α) = _
    rw [List.append_nil]
  | error e => rfl

lemma bind_assoc {γ : Type} (x : Answer ε α) (f : α → Answer ε β) (g : β → Answer ε γ) :
    x >>= f >>= g = x >>= fun a => f a >>= g := by
  obtain ⟨ws, r⟩ := x
  cases r with
  | error e => rfl
  | ok a =>
    have hstep {δ : Type} (h : α → Answer ε δ) :
        (⟨ws, .ok a⟩ : Answer ε α) >>= h = ⟨ws ++ (h a).warnings, (h a).result⟩ := rfl
    rw [hstep, hstep]
    cases hf : (f a).result with
    | error e =>
      rw [bind_of_error hf]
      rfl
    | ok b =>
      rw [bind_of_ok hf]
      change (⟨ws ++ (f a).warnings ++ (g b).warnings, (g b).result⟩ : Answer ε γ) = _
      rw [List.append_assoc]

instance : LawfulMonad (Answer ε) :=
  LawfulMonad.mk' _ id_map (fun _ _ => rfl) bind_assoc

@[simp] lemma result_pure (a : α) : (pure a : Answer ε α).result = .ok a := rfl

/-- Warnings apart, an answer is a fallible computation. -/
@[simp] lemma result_bind (x : Answer ε α) (f : α → Answer ε β) :
    (x >>= f).result = x.result >>= fun a => (f a).result := by
  cases h : x.result with
  | ok a => rw [bind_of_ok h]; rfl
  | error e => rw [bind_of_error h]; rfl

lemma result_mapM (f : α → Answer ε β) (l : List α) :
    (l.mapM f).result = l.mapM fun a => (f a).result := by
  induction l with
  | nil => rfl
  | cons a l ih => simp only [List.mapM_cons, result_bind, ih, result_pure]; rfl

lemma result_foldlM {f : β → α → Answer ε β} (l : List α) (b : β) :
    (l.foldlM f b).result = l.foldlM (fun b a => (f b a).result) b := by
  induction l generalizing b with
  | nil => rfl
  | cons a l ih => simp only [List.foldlM_cons, result_bind, ih]

lemma Gives.bind {x : Answer ε α} {a : α} (h : x.Gives a) (f : α → Answer ε β) :
    x >>= f = f a := by
  rw [show x = ⟨[], .ok a⟩ from h, bind_of_ok rfl]
  rfl

lemma Gives.unique {x : Answer ε α} {a b : α} (ha : x.Gives a) (hb : x.Gives b) : a = b := by
  cases ha
  cases hb
  rfl

@[simp] lemma gives_pure {a b : α} : (pure a : Answer ε α).Gives b ↔ a = b := by
  constructor
  · intro h
    cases h
    rfl
  · rintro rfl
    rfl

@[simp] lemma gives_ofExcept {x : Except ε α} {a : α} : (ofExcept x).Gives a ↔ x = .ok a := by
  constructor
  · intro h
    cases h
    rfl
  · rintro rfl
    rfl

/-- Nothing goes wrong in a sequence when nothing does in its parts. -/
lemma gives_bind {x : Answer ε α} {f : α → Answer ε β} {b : β} :
    (x >>= f).Gives b ↔ ∃ a, x.Gives a ∧ (f a).Gives b := by
  obtain ⟨ws, r⟩ := x
  constructor
  · intro h
    cases r with
    | error e => cases h
    | ok a =>
      rw [Gives, bind_of_ok rfl, Answer.mk.injEq, List.append_eq_nil_iff] at h
      obtain ⟨⟨hws, hf⟩, hb⟩ := h
      obtain rfl : ws = [] := hws
      refine ⟨a, rfl, ?_⟩
      rw [Gives, ← hf, ← hb]
  · rintro ⟨a, ha, hf⟩
    cases ha
    rw [Gives, bind_of_ok rfl, hf]
    rfl

/-- A traversal whose steps succeed gives what they give, with the warnings of all of them. -/
lemma mapM_of_ok {f : α → Answer ε β} {g : α → β} (h : ∀ a, (f a).result = .ok (g a))
    (l : List α) : l.mapM f = ⟨l.flatMap fun a => (f a).warnings, .ok (l.map g)⟩ := by
  induction l with
  | nil => rfl
  | cons a l ih =>
    rw [List.mapM_cons, bind_of_ok (h a), ih]
    change (⟨_ ++ (_ ++ []), _⟩ : Answer ε (List β)) = _
    rw [List.append_nil]
    rfl

lemma gives_mapM {f : α → Answer ε β} {l : List α} {bs : List β} :
    (l.mapM f).Gives bs ↔ List.Forall₂ (fun a b => (f a).Gives b) l bs := by
  induction l generalizing bs with
  | nil =>
    rw [List.mapM_nil, gives_pure, List.forall₂_nil_left_iff]
    exact eq_comm
  | cons a l ih =>
    simp only [List.mapM_cons, gives_bind, gives_pure, ih, List.forall₂_cons_left_iff]
    constructor
    · rintro ⟨b, hb, bs', hbs, rfl⟩
      exact ⟨b, bs', hb, hbs, rfl⟩
    · rintro ⟨b, bs', hb, hbs, rfl⟩
      exact ⟨b, hb, bs', hbs, rfl⟩

end Answer

/-- `ε` are the errors of the client. -/
structure DbClient (ε : Type) where
  getSchemas : RunConfig → Answer ε SchemaCatalog
  getTables : Str → List Str → Answer ε (List TableDef)
  getColumns : Str → Str → Answer ε (List ColumnInfo)
  getIndexes : Str → Str → Answer ε (List IndexInfo)
  getConstraints : Str → Str → Answer ε (List ConstInfo)
  getViewInfo : Str → Str → Answer ε ViewInfo
  getTableDdl : Str → Str → Answer ε TableDdl
  getSchemaDdl : Str → Answer ε SchemaDdl

end TdExport
