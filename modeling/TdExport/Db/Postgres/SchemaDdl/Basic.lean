import TdExport.Core.Loop
import TdExport.Core.SortedMap
import TdExport.Model.Basic

/-!
# The order of types and functions

`db/postgres/schema_ddl.rs`: the placement of types and functions before and after the tables, and
Kahn's algorithm on their dependencies.
-/

namespace TdExport.Postgres

open Core

/-! ### Kahn's algorithm -/

section Kahn

variable {K S : Type} [LinearOrder K]

/-- For each key the keys that wait for it, and the number of keys it waits for; `none` when it
waits for nothing from the start. -/
structure DepGraph (K : Type) where
  dependents : K → List K
  pending : K → Option ℕ

/-- Enter that `t` waits for `d`. -/
def DepGraph.add (g : DepGraph K) (t d : K) : DepGraph K where
  dependents := Function.update g.dependents d (g.dependents d ++ [t])
  pending := Function.update g.pending t (some ((g.pending t).getD 0 + 1))

/-- The dependencies between different keys of `statements`. -/
def depGraph (statements : SortedMap K S) (deps : List (K × K)) : DepGraph K :=
  deps.foldl
    (fun g e =>
      if e.1 ≠ e.2 ∧ statements.contains e.1 ∧ statements.contains e.2 then g.add e.1 e.2 else g)
    ⟨fun _ => [], fun _ => none⟩

/-- The state of the loop of `order_by_dependency`. -/
structure Kahn (K S : Type) [LinearOrder K] where
  statements : SortedMap K S
  pending : K → Option ℕ
  ready : Finset K
  ordered : List S

/-- One dependency of `u` is met. -/
def release (p : (K → Option ℕ) × Finset K) (u : K) : (K → Option ℕ) × Finset K :=
  match p.1 u with
  | none => p
  | some n => (Function.update p.1 u (some (n - 1)), if n - 1 = 0 then insert u p.2 else p.2)

/-- One turn of the loop: the least ready key is emitted. -/
def kahnStep (dependents : K → List K) (s : Kahn K S) : Option (Kahn K S) :=
  if h : s.ready.Nonempty then
    let t := s.ready.min' h
    let released := (dependents t).foldl release (s.pending, s.ready.erase t)
    some ⟨s.statements.erase t, released.1, released.2,
      s.ordered ++ (s.statements.lookup t).toList⟩
  else none

/-- The statements in the order of their dependencies, the least ready key first; what is left
over follows in the order of the keys. `none` if the loop did not end. -/
def orderByDependency (nodes : List (K × S)) (deps : List (K × K)) : Option (List S) :=
  let statements := SortedMap.ofList nodes
  let g := depGraph statements deps
  let ready := (statements.keys.filter fun t => (g.pending t).isNone).toFinset
  (Loop.run (kahnStep g.dependents) nodes.length ⟨statements, g.pending, ready, []⟩).map
    fun s => s.ordered ++ s.statements.values

end Kahn

/-! ### Types and functions -/

inductive ObjectKind where
  | type
  | function
  deriving DecidableEq, Repr

structure ObjectKey where
  kind : ObjectKind
  oid : ℤ
  deriving DecidableEq, Repr

/-- Types come before functions, and both are in the order of their OIDs. -/
def ObjectKey.rank (k : ObjectKey) : ℕ ×ₗ ℤ :=
  toLex (match k.kind with
    | .type => 0
    | .function => 1, k.oid)

lemma ObjectKey.rank_injective : Function.Injective ObjectKey.rank := by
  rintro ⟨k, a⟩ ⟨l, b⟩ h
  obtain ⟨hkind, hoid⟩ := Prod.mk.inj (toLex.injective h)
  obtain rfl : a = b := hoid
  cases k <;> cases l <;> first | rfl | cases hkind

instance : LinearOrder ObjectKey := LinearOrder.lift' ObjectKey.rank ObjectKey.rank_injective

/-- A function with its definition as the server prints it. -/
structure PgFunction where
  oid : ℤ
  name : Str
  definition : Str
  usesTables : Bool
  deriving DecidableEq, Repr

def PgFunction.key (f : PgFunction) : ObjectKey := ⟨.function, f.oid⟩

def PgFunction.statement (f : PgFunction) : Str := trimEnd f.definition ++ ";"

/-- `(t, d)` means that `t` uses `d`. -/
abbrev Deps := List (ObjectKey × ObjectKey)

/-- The functions that use one of the functions `after`. -/
def functionUsers (deps : Deps) (after : Finset ℤ) : List ℤ :=
  deps.filterMap fun e =>
    if e.1.kind = .function ∧ e.2.kind = .function ∧ e.2.oid ∈ after then some e.1.oid else none

/-- One turn of the loop that collects the functions behind the tables. -/
def growStep (deps : Deps) (after : Finset ℤ) : Option (Finset ℤ) :=
  let grew := (functionUsers deps after).filter (· ∉ after)
  if grew = [] then none else some (after ∪ grew.toFinset)

/-- The OIDs of the functions behind the tables; `none` if the loop did not end. -/
def functionsAfterTables (functions : List PgFunction) (deps : Deps) : Option (Finset ℤ) :=
  Loop.run (growStep deps) deps.length
    ((functions.filter PgFunction.usesTables).map PgFunction.oid).toFinset

/-- The nodes to be ordered before the tables and behind them. -/
def placeTypesAndFunctions (types : List (ℤ × Str)) (functions : List PgFunction) (deps : Deps) :
    Option (List (ObjectKey × Str) × List (ObjectKey × Str)) := do
  let after ← functionsAfterTables functions deps
  let (late, early) := functions.partition fun f => f.oid ∈ after
  let earlyNodes := types.map (fun t => (⟨.type, t.1⟩, t.2)) ++
    early.map fun f => (f.key, f.statement)
  let lateNodes := late.map fun f => (f.key, f.statement)
  return (earlyNodes, lateNodes)

/-- The statements before the tables and behind them. -/
def orderTypesAndFunctions (types : List (ℤ × Str)) (functions : List PgFunction) (deps : Deps) :
    Option (List Str × List Str) := do
  let (earlyNodes, lateNodes) ← placeTypesAndFunctions types functions deps
  return (← orderByDependency earlyNodes deps, ← orderByDependency lateNodes deps)

end TdExport.Postgres
