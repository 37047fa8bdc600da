import RelEngine.Row

/-!
# Stored tables

A stored table has a name, a schema and its rows in the order in which they were added. On disk its
rows lie in blocks of `slotsPerBlock` field slots, as many rows to a block as fit and at least one.
-/

namespace RelEngine

/-- Field slots in one block. -/
def slotsPerBlock : Nat := 8

/-- **A stored table.** -/
structure Relation where
  name : String
  schema : Schema
  rows : List Row
deriving DecidableEq, Repr

namespace Relation

/-- A table without rows. -/
def empty (name : String) (schema : Schema) : Relation := ⟨name, schema, []⟩

/-- How many rows share a block. -/
def rowsPerBlock (r : Relation) : Nat := max 1 (slotsPerBlock / r.schema.size)

/-- A block holds at least one row. -/
theorem rowsPerBlock_pos (r : Relation) : 0 < r.rowsPerBlock := by
  unfold rowsPerBlock; omega

/-- How many blocks the rows fill, the last perhaps in part. -/
def blockCount (r : Relation) : Nat :=
  (r.rows.length + r.rowsPerBlock - 1) / r.rowsPerBlock

/-- Whether the last block has room for another row. -/
def lastBlockPartial (r : Relation) : Bool := r.rows.length % r.rowsPerBlock != 0

/-- The table with one more row, behind the others. -/
def append (r : Relation) (row : Row) : Relation := { r with rows := r.rows ++ [row] }

/-- **Removing the rows that `condition` marks**: the table afterwards, and how many rows went. The
condition is evaluated on every row before any row goes. -/
def removeWhere (r : Relation) (condition : Row → Except Error Bool) :
    Relation × Except Error Nat :=
  match r.rows.mapM condition with
  | .error e => (r, .error e)
  | .ok marks =>
    let kept := (r.rows.zip marks).filter fun p => !p.2
    ({ r with rows := kept.map Prod.fst }, .ok (r.rows.length - kept.length))

end Relation

end RelEngine
