import TdExport.Db.Postgres.SchemaDdl.Kahn

/-!
# Which objects come before the tables

The functions behind the tables are those from which a function that uses tables is reached over
functions alone. A chain that passes over a type is not followed, and this is the only way in which
an object can be created before one it depends on.
-/

namespace TdExport.Postgres

open Core Relation

variable {types : List (ℤ × Str)} {functions : List PgFunction} {deps : Deps}

/-! ### The loop over the functions -/

/-- A function that uses tables, or depends on such a function over functions alone. -/
inductive TableUser (functions : List PgFunction) (deps : Deps) : ObjectKey → Prop
  | uses {f} : f ∈ functions → f.usesTables = true → TableUser functions deps f.key
  | calls {t d} : Needs deps t d → t.kind = .function → TableUser functions deps d →
      TableUser functions deps t

lemma TableUser.kind {k : ObjectKey} (h : TableUser functions deps k) : k.kind = .function := by
  cases h with
  | uses _ _ => rfl
  | calls _ hk _ => exact hk

/-- From a table user a listed function that uses tables is reached. -/
lemma TableUser.reaches {k : ObjectKey} (h : TableUser functions deps k) :
    ∃ f ∈ functions, f.usesTables = true ∧ ReflTransGen (Needs deps) k f.key := by
  induction h with
  | uses hf huses => exact ⟨_, hf, huses, .refl⟩
  | calls htd _ _ ih =>
    obtain ⟨f, hf, huses, hreach⟩ := ih
    exact ⟨f, hf, huses, hreach.head htd⟩

lemma mem_functionUsers {after : Finset ℤ} {o : ℤ} :
    o ∈ functionUsers deps after ↔
      ∃ d, Needs deps ⟨.function, o⟩ d ∧ d.kind = .function ∧ d.oid ∈ after := by
  simp only [functionUsers, List.mem_filterMap, Option.ite_none_right_eq_some, Option.some_inj]
  constructor
  · rintro ⟨⟨⟨k, oid⟩, d⟩, he, ⟨hk, hd⟩, ho⟩
    obtain rfl : k = .function := hk
    obtain rfl : oid = o := ho
    exact ⟨d, he, hd⟩
  · rintro ⟨d, hd, hkind, hafter⟩
    exact ⟨(⟨.function, o⟩, d), hd, ⟨rfl, hkind, hafter⟩, rfl⟩

/-- The functions with which the loop starts. -/
def tableFunctions (functions : List PgFunction) : Finset ℤ :=
  ((functions.filter PgFunction.usesTables).map PgFunction.oid).toFinset

lemma mem_tableFunctions {o : ℤ} :
    o ∈ tableFunctions functions ↔ ∃ f ∈ functions, f.usesTables = true ∧ f.oid = o := by
  simp [tableFunctions, and_assoc]

/-- What the loop has collected: the functions it started with, and only table users. -/
structure Collected (functions : List PgFunction) (deps : Deps) (after : Finset ℤ) : Prop where
  start : tableFunctions functions ⊆ after
  tableUser : ∀ o ∈ after, TableUser functions deps ⟨.function, o⟩

variable {after after' : Finset ℤ}

/-- A turn adds table users, and at least one. -/
lemma Collected.step (h : Collected functions deps after)
    (hstep : growStep deps after = some after') :
    Collected functions deps after' ∧
      ((deps.map fun e => e.1.oid).toFinset \ after').card <
        ((deps.map fun e => e.1.oid).toFinset \ after).card := by
  simp only [growStep] at hstep
  split_ifs at hstep with hgrew
  obtain rfl := Option.some_inj.mp hstep
  refine ⟨⟨h.start.trans Finset.subset_union_left, fun o ho => ?_⟩, ?_⟩
  · rcases Finset.mem_union.mp ho with ho | ho
    · exact h.tableUser o ho
    · obtain ⟨⟨k, oid⟩, hd, hkind, hafter⟩ :=
        mem_functionUsers.mp (List.mem_filter.mp (List.mem_toFinset.mp ho)).1
      obtain rfl : k = .function := hkind
      exact .calls hd rfl (h.tableUser oid hafter)
  · obtain ⟨o, ho⟩ := List.exists_mem_of_ne_nil _ hgrew
    obtain ⟨huser, hnot⟩ := List.mem_filter.mp ho
    obtain ⟨d, hd, -⟩ := mem_functionUsers.mp huser
    refine Finset.card_lt_card ⟨Finset.sdiff_subset_sdiff le_rfl Finset.subset_union_left, ?_⟩
    intro hsub
    have hmem : o ∈ (deps.map fun e => e.1.oid).toFinset \ after := by
      rw [Finset.mem_sdiff, List.mem_toFinset]
      exact ⟨List.mem_map.mpr ⟨_, hd, rfl⟩, by simpa using hnot⟩
    exact (Finset.mem_sdiff.mp (hsub hmem)).2
      (Finset.mem_union_right _ (List.mem_toFinset.mpr ho))

/-- When the loop stops nothing is missing. -/
lemma Collected.oid_mem_of_stop (h : Collected functions deps after)
    (hstop : growStep deps after = none) {k : ObjectKey} (hk : TableUser functions deps k) :
    k.oid ∈ after := by
  induction hk with
  | @uses f hf huses => exact h.start (mem_tableFunctions.mpr ⟨f, hf, huses, rfl⟩)
  | @calls t d htd hkind hd ih =>
    obtain ⟨k, oid⟩ := t
    obtain rfl : k = .function := hkind
    have huser : oid ∈ functionUsers deps after := mem_functionUsers.mpr ⟨d, htd, hd.kind, ih⟩
    by_contra hnot
    have hmem : oid ∈ (functionUsers deps after).filter (· ∉ after) :=
      List.mem_filter.mpr ⟨huser, decide_eq_true hnot⟩
    simp only [growStep] at hstop
    split_ifs at hstop with hgrew
    rw [hgrew] at hmem
    exact List.not_mem_nil hmem

/-- The loop ends with the table users. -/
lemma functionsAfterTables_eq (functions : List PgFunction) (deps : Deps) :
    ∃ after, functionsAfterTables functions deps = some after ∧
      ∀ o, o ∈ after ↔ TableUser functions deps ⟨.function, o⟩ := by
  have hstart : Collected functions deps (tableFunctions functions) := by
    refine ⟨le_rfl, fun o ho => ?_⟩
    obtain ⟨f, hf, huses, rfl⟩ := mem_tableFunctions.mp ho
    exact .uses hf huses
  have hfuel : ((deps.map fun e => e.1.oid).toFinset \ tableFunctions functions).card ≤
      deps.length := by
    refine (Finset.card_le_card Finset.sdiff_subset).trans ?_
    exact (List.toFinset_card_le _).trans (by rw [List.length_map])
  obtain ⟨after, hrun, hafter, hstop⟩ := Loop.run_total (Collected functions deps)
    (fun after => ((deps.map fun e => e.1.oid).toFinset \ after).card)
    (fun _ _ hs hst => hs.step hst) hstart hfuel
  exact ⟨after, hrun, fun o => ⟨hafter.tableUser o, hafter.oid_mem_of_stop hstop⟩⟩

/-! ### The two lists -/

/-- The objects to be created, with their statements. -/
def objects (types : List (ℤ × Str)) (functions : List PgFunction) : List (ObjectKey × Str) :=
  types.map (fun t => (⟨.type, t.1⟩, t.2)) ++ functions.map fun f => (f.key, f.statement)

/-- The objects in the order of their creation, before the tables and behind them: the two lists
of `order_types_and_functions`, each statement with its key. -/
def creationOrder (types : List (ℤ × Str)) (functions : List PgFunction) (deps : Deps) :
    Option (List (ObjectKey × Str) × List (ObjectKey × Str)) := do
  let (earlyNodes, lateNodes) ← placeTypesAndFunctions types functions deps
  return (← orderByDependency (earlyNodes.map fun n => (n.1, n)) deps,
    ← orderByDependency (lateNodes.map fun n => (n.1, n)) deps)

/-- The placement: each object is in one list, table users behind the tables. -/
lemma placeTypesAndFunctions_eq (types : List (ℤ × Str)) (functions : List PgFunction)
    (deps : Deps) :
    ∃ early late, placeTypesAndFunctions types functions deps = some (early, late) ∧
      (early ++ late).Perm (objects types functions) ∧
      (∀ n ∈ early, ¬ TableUser functions deps n.1) ∧
      ∀ n ∈ late, TableUser functions deps n.1 := by
  obtain ⟨after, hafter, hmem⟩ := functionsAfterTables_eq functions deps
  have hplace : placeTypesAndFunctions types functions deps = some
      (types.map (fun t => (⟨.type, t.1⟩, t.2)) ++
        (functions.filter fun f => !decide (f.oid ∈ after)).map fun f => (f.key, f.statement),
        (functions.filter fun f => f.oid ∈ after).map fun f => (f.key, f.statement)) := by
    simp [placeTypesAndFunctions, hafter, List.partition_eq_filter_filter, Function.comp_def]
  refine ⟨_, _, hplace, ?_, ?_, ?_⟩
  · rw [List.append_assoc, ← List.map_append, objects]
    refine List.Perm.append_left _ (List.Perm.map _ ?_)
    exact List.perm_append_comm.trans (List.filter_append_perm _ _)
  · intro n hn huser
    rcases List.mem_append.mp hn with hn | hn
    · obtain ⟨t, -, rfl⟩ := List.mem_map.mp hn
      cases huser.kind
    · obtain ⟨f, hf, rfl⟩ := List.mem_map.mp hn
      have hnot := (List.mem_filter.mp hf).2
      have := (hmem f.oid).mpr huser
      simp [this] at hnot
  · intro n hn
    obtain ⟨f, hf, rfl⟩ := List.mem_map.mp hn
    exact (hmem f.oid).mp (by simpa using (List.mem_filter.mp hf).2)

/-- Different OIDs make different keys. -/
lemma nodup_objects (htypes : (types.map Prod.fst).Nodup)
    (hfunctions : (functions.map PgFunction.oid).Nodup) :
    ((objects types functions).map Prod.fst).Nodup := by
  have hinjType : Function.Injective (ObjectKey.mk .type) := fun a b h => by injection h
  have hinjFunction : Function.Injective (ObjectKey.mk .function) := fun a b h => by injection h
  have hkeys : (objects types functions).map Prod.fst =
      (types.map Prod.fst).map (ObjectKey.mk .type) ++
        (functions.map PgFunction.oid).map (ObjectKey.mk .function) := by
    simp [objects, PgFunction.key, Function.comp_def]
  rw [hkeys]
  refine (htypes.map hinjType).append (hfunctions.map hinjFunction) ?_
  intro k hk hk'
  obtain ⟨a, -, rfl⟩ := List.mem_map.mp hk
  obtain ⟨b, -, hb⟩ := List.mem_map.mp hk'
  cases hb

/-! ### The order of creation -/

/-- `before` and `after` are the objects created before and behind the tables. -/
structure Created (types : List (ℤ × Str)) (functions : List PgFunction) (deps : Deps)
    (before after : List (ObjectKey × Str)) : Prop where
  perm : (before ++ after).Perm (objects types functions)
  before_not_user : ∀ k ∈ before.map Prod.fst, ¬ TableUser functions deps k
  after_user : ∀ k ∈ after.map Prod.fst, TableUser functions deps k
  before_order : ∀ t d, t ∈ before.map Prod.fst → d ∈ before.map Prod.fst → Needs deps t d →
    AcyclicFrom (Needs deps) t → Before (before.map Prod.fst) d t
  after_order : ∀ t d, t ∈ after.map Prod.fst → d ∈ after.map Prod.fst → Needs deps t d →
    AcyclicFrom (Needs deps) t → Before (after.map Prod.fst) d t

/-- Both loops end, and they create every object once. -/
lemma creationOrder_created (htypes : (types.map Prod.fst).Nodup)
    (hfunctions : (functions.map PgFunction.oid).Nodup) (deps : Deps) :
    ∃ before after, creationOrder types functions deps = some (before, after) ∧
      orderTypesAndFunctions types functions deps =
        some (before.map Prod.snd, after.map Prod.snd) ∧
      Created types functions deps before after := by
  obtain ⟨early, late, hplace, hperm, hearly, hlate⟩ :=
    placeTypesAndFunctions_eq types functions deps
  have hnodup := (hperm.map Prod.fst).nodup_iff.mpr (nodup_objects htypes hfunctions)
  rw [List.map_append] at hnodup
  obtain ⟨before, hbefore, hbefore', hbeforeKeys, hbeforePerm⟩ :=
    orderByDependency_labelled deps hnodup.of_append_left
  obtain ⟨after, hafter, hafter', hafterKeys, hafterPerm⟩ :=
    orderByDependency_labelled deps hnodup.of_append_right
  refine ⟨before, after, ?_, ?_, ?_⟩
  · simp [creationOrder, hplace, hbefore, hafter]
  · simp [orderTypesAndFunctions, hplace, hbefore', hafter']
  · refine ⟨(hbeforePerm.append hafterPerm).trans hperm, ?_, ?_, ?_, ?_⟩
    · intro k hk
      obtain ⟨n, hn, rfl⟩ := List.mem_map.mp hk
      exact hearly n (hbeforePerm.mem_iff.mp hn)
    · intro k hk
      obtain ⟨n, hn, rfl⟩ := List.mem_map.mp hk
      exact hlate n (hafterPerm.mem_iff.mp hn)
    · intro t d ht hd htd hacyclic
      rw [(hbeforePerm.map Prod.fst).mem_iff] at ht hd
      rw [hbeforeKeys]
      exact emissionOrder_before hnodup.of_append_left hacyclic ht hd htd
    · intro t d ht hd htd hacyclic
      rw [(hafterPerm.map Prod.fst).mem_iff] at ht hd
      rw [hafterKeys]
      exact emissionOrder_before hnodup.of_append_right hacyclic ht hd htd

/-- Every object comes later than each object it depends on, and no object created before the
tables leads to a function created behind them. -/
structure RespectsDeps (deps : Deps) (before after : List ObjectKey) : Prop where
  later : ∀ t ∈ before ++ after, ∀ d ∈ before ++ after, Needs deps t d →
    Before (before ++ after) d t
  apart : ∀ t ∈ before, ∀ d ∈ after, ¬ TransGen (Needs deps) t d

/-- No object that is not a table user itself leads over a type to a table user. -/
def NoTypeNeedsTableUser (types : List (ℤ × Str)) (functions : List PgFunction) (deps : Deps) :
    Prop :=
  ∀ k ∈ (objects types functions).map Prod.fst, ¬ TableUser functions deps k →
    ∀ t, ReflTransGen (Needs deps) k t → t.kind = .type →
      ∀ d, Needs deps t d → ¬ TableUser functions deps d

/-- A chain from another object to a table user passes over a type that needs a table user. -/
lemma exists_type_of_chain {k d : ObjectKey} (hchain : TransGen (Needs deps) k d)
    (hk : ¬ TableUser functions deps k) (hd : TableUser functions deps d) :
    ∃ t, ReflTransGen (Needs deps) k t ∧ t.kind = .type ∧
      ∃ d, Needs deps t d ∧ TableUser functions deps d := by
  have hdirect : ∀ a b, Needs deps a b → ¬ TableUser functions deps a →
      TableUser functions deps b → a.kind = .type := by
    intro a b hab ha hb
    cases hkind : a.kind with
    | type => rfl
    | function => exact absurd (.calls hab hkind hb) ha
  induction hchain using TransGen.head_induction_on with
  | @single a hab => exact ⟨a, .refl, hdirect a d hab hk hd, d, hab, hd⟩
  | @head a b hab hbd ih =>
    by_cases hb : TableUser functions deps b
    · exact ⟨a, .refl, hdirect a b hab hk hb, b, hab, hb⟩
    · obtain ⟨t, hbt, ht⟩ := ih hb
      exact ⟨t, hbt.head hab, ht⟩

variable {before after : List (ObjectKey × Str)}

lemma Created.mem_iff (h : Created types functions deps before after) {k : ObjectKey} :
    k ∈ before.map Prod.fst ∨ k ∈ after.map Prod.fst ↔
      k ∈ (objects types functions).map Prod.fst := by
  rw [← (h.perm.map Prod.fst).mem_iff, List.map_append, List.mem_append]

/-- The condition keeps what an object depends on out of the list behind the tables. -/
lemma Created.not_needs (h : Created types functions deps before after)
    (hcond : NoTypeNeedsTableUser types functions deps) {t d : ObjectKey}
    (ht : t ∈ before.map Prod.fst) (hd : d ∈ after.map Prod.fst) :
    ¬ TransGen (Needs deps) t d := by
  intro hchain
  have hnot := h.before_not_user t ht
  obtain ⟨p, htp, hp, a, hpa, ha⟩ := exists_type_of_chain hchain hnot (h.after_user d hd)
  exact hcond t (h.mem_iff.mp (.inl ht)) hnot p htp hp a hpa ha

lemma Created.respectsDeps (h : Created types functions deps before after)
    (hacyclic : ∀ k, ¬ TransGen (Needs deps) k k)
    (hcond : NoTypeNeedsTableUser types functions deps) :
    RespectsDeps deps (before.map Prod.fst) (after.map Prod.fst) := by
  have hapart : ∀ k ∈ before.map Prod.fst, k ∉ after.map Prod.fst := fun k hb ha =>
    h.before_not_user k hb (h.after_user k ha)
  refine ⟨?_, fun t ht d hd => h.not_needs hcond ht hd⟩
  intro t ht d hd htd
  rcases List.mem_append.mp ht with ht | ht <;> rcases List.mem_append.mp hd with hd | hd
  · exact (h.before_order t d ht hd htd fun k _ => hacyclic k).append_left (hapart t ht)
  · exact absurd (.single htd) (h.not_needs hcond ht hd)
  · exact before_append hd fun hb => hapart t hb ht
  · exact (h.after_order t d ht hd htd fun k _ => hacyclic k).append_right fun hb => hapart t hb ht

lemma Created.condition_of_respectsDeps (h : Created types functions deps before after)
    (hrespects : RespectsDeps deps (before.map Prod.fst) (after.map Prod.fst)) :
    NoTypeNeedsTableUser types functions deps := by
  intro k hk hnot t hkt _ d htd hd
  obtain ⟨f, hf, huses, hreach⟩ := hd.reaches
  have hbefore : k ∈ before.map Prod.fst :=
    (h.mem_iff.mpr hk).resolve_right fun ha => hnot (h.after_user k ha)
  have hmem : f.key ∈ (objects types functions).map Prod.fst :=
    List.mem_map.mpr ⟨(f.key, f.statement), List.mem_append_right _ (List.mem_map_of_mem hf), rfl⟩
  have hafter : f.key ∈ after.map Prod.fst :=
    (h.mem_iff.mpr hmem).resolve_left fun hb => h.before_not_user _ hb (.uses hf huses)
  exact hrespects.apart k hbefore f.key hafter
    ((TransGen.tail' hkt htd).trans_left hreach)

/-- `order_types_and_functions` creates every object once. It creates each after all it depends on,
and none before the tables that leads to one behind them, exactly when no object that is not a
table user itself leads over a type to a table user. -/
theorem orderTypesAndFunctions_respectsDeps_iff (types : List (ℤ × Str))
    (functions : List PgFunction) (deps : Deps) (htypes : (types.map Prod.fst).Nodup)
    (hfunctions : (functions.map PgFunction.oid).Nodup)
    (hacyclic : ∀ k, ¬ TransGen (Needs deps) k k) :
    ∃ before after, creationOrder types functions deps = some (before, after) ∧
      orderTypesAndFunctions types functions deps =
        some (before.map Prod.snd, after.map Prod.snd) ∧
      (before ++ after).Perm (objects types functions) ∧
      (RespectsDeps deps (before.map Prod.fst) (after.map Prod.fst) ↔
        NoTypeNeedsTableUser types functions deps) := by
  obtain ⟨before, after, horder, hstatements, hcreated⟩ :=
    creationOrder_created htypes hfunctions deps
  refine ⟨before, after, horder, hstatements, hcreated.perm, ?_, ?_⟩
  · exact hcreated.condition_of_respectsDeps
  · exact hcreated.respectsDeps hacyclic

/-! ### The functions behind the tables -/

/-- The function `o` uses the function `p`. -/
def FunctionDep (deps : Deps) (o p : ℤ) : Prop := Needs deps ⟨.function, o⟩ ⟨.function, p⟩

/-- A table user reaches a listed function that uses tables over functions alone. -/
lemma tableUser_function_iff {o : ℤ} :
    TableUser functions deps ⟨.function, o⟩ ↔
      ∃ g ∈ functions, g.usesTables = true ∧ ReflTransGen (FunctionDep deps) o g.oid := by
  constructor
  · intro h
    generalize hk : (⟨.function, o⟩ : ObjectKey) = k at h
    induction h generalizing o with
    | @uses f hf huses =>
      obtain rfl : o = f.oid := congrArg ObjectKey.oid hk
      exact ⟨f, hf, huses, .refl⟩
    | @calls t d htd _ hd ih =>
      obtain ⟨kind, p⟩ := d
      obtain rfl : kind = .function := hd.kind
      obtain ⟨g, hg, huses, hreach⟩ := ih rfl
      rw [← hk] at htd
      exact ⟨g, hg, huses, hreach.head htd⟩
  · rintro ⟨g, hg, huses, hreach⟩
    induction hreach using ReflTransGen.head_induction_on with
    | refl => exact .uses hg huses
    | head hop _ ih => exact .calls hop rfl ih

/-- `order_types_and_functions` ends and creates every object once. A function is created behind
the tables exactly when it uses tables or leads, over functions alone, to a listed function that
does. -/
theorem orderTypesAndFunctions_behind_tables_iff (types : List (ℤ × Str))
    (functions : List PgFunction) (deps : Deps) (htypes : (types.map Prod.fst).Nodup)
    (hfunctions : (functions.map PgFunction.oid).Nodup) :
    ∃ before after, creationOrder types functions deps = some (before, after) ∧
      orderTypesAndFunctions types functions deps =
        some (before.map Prod.snd, after.map Prod.snd) ∧
      (before ++ after).Perm (objects types functions) ∧
      ∀ f ∈ functions, (f.key, f.statement) ∈ after ↔
        f.usesTables = true ∨
          ∃ g ∈ functions, g.usesTables = true ∧ TransGen (FunctionDep deps) f.oid g.oid := by
  obtain ⟨before, after, horder, hstatements, hcreated⟩ :=
    creationOrder_created htypes hfunctions deps
  refine ⟨before, after, horder, hstatements, hcreated.perm, fun f hf => ?_⟩
  have hafter : (f.key, f.statement) ∈ after ↔ TableUser functions deps f.key := by
    constructor
    · exact fun h => hcreated.after_user _ (List.mem_map_of_mem h)
    · intro huser
      have hmem : (f.key, f.statement) ∈ before ++ after :=
        hcreated.perm.mem_iff.mpr (List.mem_append_right _ (List.mem_map_of_mem hf))
      rcases List.mem_append.mp hmem with hb | ha
      · exact absurd huser (hcreated.before_not_user _ (List.mem_map_of_mem hb))
      · exact ha
  rw [hafter, PgFunction.key, tableUser_function_iff]
  constructor
  · rintro ⟨g, hg, huses, hreach⟩
    rcases reflTransGen_iff_eq_or_transGen.mp hreach with heq | hchain
    · have hfg := List.inj_on_of_nodup_map hfunctions hg hf heq
      exact .inl (hfg ▸ huses)
    · exact .inr ⟨g, hg, huses, hchain⟩
  · rintro (huses | ⟨g, hg, huses, hchain⟩)
    · exact ⟨f, hf, huses, .refl⟩
    · exact ⟨g, hg, huses, hchain.to_reflTransGen⟩

/-- The function `wrap`, which calls `all_rows`. -/
def wrapper : List PgFunction :=
  [⟨30, "all_rows", "CREATE FUNCTION all_rows()", true⟩,
    ⟨40, "wrap", "CREATE FUNCTION wrap()", false⟩]

def wrapperDeps : Deps := [(⟨.function, 40⟩, ⟨.function, 30⟩)]

theorem orderTypesAndFunctions_behind_tables_iff_wrapper :
    ∃ before after, creationOrder [] wrapper wrapperDeps = some (before, after) ∧
      orderTypesAndFunctions [] wrapper wrapperDeps =
        some (before.map Prod.snd, after.map Prod.snd) ∧
      (before ++ after).Perm (objects [] wrapper) ∧
      ∀ f ∈ wrapper, (f.key, f.statement) ∈ after ↔
        f.usesTables = true ∨
          ∃ g ∈ wrapper, g.usesTables = true ∧ TransGen (FunctionDep wrapperDeps) f.oid g.oid :=
  orderTypesAndFunctions_behind_tables_iff [] wrapper wrapperDeps List.nodup_nil (by simp [wrapper])

/-! ### A domain whose check uses a function -/

/-- The domain `d`, whose check calls the function `f`. -/
def checkedDomain : List (ℤ × Str) := [(10, "CREATE DOMAIN d")]

def checkFunction (usesTables : Bool) : PgFunction where
  oid := 5
  name := "f"
  definition := "CREATE FUNCTION f()"
  usesTables := usesTables

def checkDeps : Deps := [(⟨.type, 10⟩, ⟨.function, 5⟩)]

lemma acyclic_checkDeps (k : ObjectKey) : ¬ TransGen (Needs checkDeps) k k := by
  have hstep : ∀ a b, Needs checkDeps a b → a.kind = .type ∧ b.kind = .function := by
    intro a b hab
    obtain ⟨rfl, rfl⟩ := Prod.mk.inj (List.mem_singleton.mp hab)
    exact ⟨rfl, rfl⟩
  intro h
  obtain ⟨a, hka, -⟩ := TransGen.head'_iff.mp h
  obtain ⟨b, -, hbk⟩ := TransGen.tail'_iff.mp h
  have hkind := (hstep k a hka).1.symm.trans (hstep b k hbk).2
  cases hkind

theorem orderTypesAndFunctions_respectsDeps_iff_checkedDomain :
    (checkedDomain.map Prod.fst).Nodup ∧ ([checkFunction false].map PgFunction.oid).Nodup ∧
      (∀ k, ¬ TransGen (Needs checkDeps) k k) ∧
      ∃ before after,
        creationOrder checkedDomain [checkFunction false] checkDeps = some (before, after) ∧
        orderTypesAndFunctions checkedDomain [checkFunction false] checkDeps =
          some (before.map Prod.snd, after.map Prod.snd) ∧
        (before ++ after).Perm (objects checkedDomain [checkFunction false]) ∧
        (RespectsDeps checkDeps (before.map Prod.fst) (after.map Prod.fst) ↔
          NoTypeNeedsTableUser checkedDomain [checkFunction false] checkDeps) :=
  ⟨by decide, by decide, acyclic_checkDeps,
    orderTypesAndFunctions_respectsDeps_iff checkedDomain [checkFunction false] checkDeps
      (by decide) (by decide) acyclic_checkDeps⟩

/-- When the function uses tables, the domain is created before the function it needs. -/
theorem domain_created_before_check_function :
    ¬ ∀ (types : List (ℤ × Str)) (functions : List PgFunction) (deps : Deps),
      (types.map Prod.fst).Nodup → (functions.map PgFunction.oid).Nodup →
      (∀ k, ¬ TransGen (Needs deps) k k) →
      ∃ before after, creationOrder types functions deps = some (before, after) ∧
        RespectsDeps deps (before.map Prod.fst) (after.map Prod.fst) := by
  intro h
  obtain ⟨before, after, horder, hrespects⟩ :=
    h checkedDomain [checkFunction true] checkDeps (by decide) (by decide) acyclic_checkDeps
  let domain : ObjectKey × Str := (⟨.type, 10⟩, "CREATE DOMAIN d")
  let function : ObjectKey × Str := (⟨.function, 5⟩, "CREATE FUNCTION f();")
  have hcreated : creationOrder checkedDomain [checkFunction true] checkDeps =
      some ([domain], [function]) := by
    decide
  obtain ⟨rfl, rfl⟩ := Prod.mk.inj (Option.some_inj.mp (horder.symm.trans hcreated))
  have hbefore := hrespects.later ⟨.type, 10⟩ (by decide) ⟨.function, 5⟩ (by decide)
    List.mem_cons_self
  exact List.not_mem_nil (hbefore [] _ rfl)

end TdExport.Postgres
