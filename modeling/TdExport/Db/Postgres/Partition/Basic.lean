import TdExport.Core.Forest
import TdExport.Core.StableSort
import TdExport.Db.Postgres.Parse.Basic

/-!
# The indexes of a partition tree

`db/postgres/partition.rs`: the order in which the indexes of a partitioned table and of its
partitions are created.
-/

namespace TdExport.Postgres

open Core

/-- An index of a partition tree: the level of its table in the tree, and the index of the parent
partition to which it is attached. -/
structure TreeIndex where
  oid : ℤ
  level : ℤ
  parent : Option ℤ
  definition : Str
  deriving DecidableEq, Repr

/-- The map `by_oid`: the last index with the OID. -/
def byOid (indexes : List TreeIndex) (oid : ℤ) : Option TreeIndex :=
  indexes.reverse.find? (·.oid = oid)

/-- The index of the list to which `index` is attached. -/
def TreeIndex.parentIn (indexes : List TreeIndex) (index : TreeIndex) : Option TreeIndex :=
  index.parent.bind (byOid indexes)

/-- The walk to the root takes at most as many turns as the map has entries. -/
def rootOf (indexes : List TreeIndex) (index : TreeIndex) : TreeIndex :=
  climb (TreeIndex.parentIn indexes) (indexes.map TreeIndex.oid).dedup.length index

/-- Roots on a higher level first; within a tree the deepest level first. -/
def treeKey (indexes : List TreeIndex) (index : TreeIndex) : ℤ ×ₗ ℤ ×ₗ ℤᵒᵈ ×ₗ ℤ :=
  let root := rootOf indexes index
  toLex (root.level, toLex (root.oid, toLex (OrderDual.toDual index.level, index.oid)))

def TreeIndex.statement (index : TreeIndex) : Str := withoutOnOnly index.definition ++ ";"

def orderTreeIndexes (indexes : List TreeIndex) : List Str :=
  (sortByCachedKey (treeKey indexes) indexes).map TreeIndex.statement

end TdExport.Postgres
