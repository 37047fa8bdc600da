import RelEngine.Statement
import RelEngine.Storage.Catalog
import RelEngine.Storage.Memory

/-!
# Running queries

A query over one table starts from that table's rows. A query over several starts from their cross
product, built by nested loops, one round for each table after the first: the first table varies
slowest, and each row is the values of the component rows one after the other. Between the rounds
the rows carry the first fields of the qualified schema of all sources, and after the last one all
of them. From there the condition keeps rows, and `DISTINCT` keeps the first of the rows that agree
on the projected columns.

What a query reads from disk depends on its tables alone (`Query.reads`): the first table once,
every other table once for each load of the first one into memory.
-/

namespace RelEngine

/-- The rows that satisfy a condition, in order, or the error of the first row on which it fails. -/
def keepRows (condition : Row → Except Error Bool) : List Row → Except Error (List Row)
  | [] => .ok []
  | row :: rest => do
    if ← condition row then
      let kept ← keepRows condition rest
      .ok (row :: kept)
    else keepRows condition rest

/-- The rows whose key differs from those of `seen` and of all rows before them, in order. -/
def firstRows (key : Row → Except Error (List Value)) (seen : List (List Value)) :
    List Row → Except Error (List Row)
  | [] => .ok []
  | row :: rest => do
    let k ← key row
    if k ∈ seen then firstRows key seen rest
    else
      let kept ← firstRows key (k :: seen) rest
      .ok (row :: kept)

/-- **Nested loops** over the tables that are still to be joined: every row so far with every row of
the next table behind it. The rows so far fill the first `width` fields of the final schema, and
each round re-homes them under the fields that it reaches. -/
def nestedLoops (schema : Schema) (width : Nat) (rows : List Row) :
    List Relation → Except Error (List Row)
  | [] => .ok rows
  | r :: rest => do
    let reached ← schema.leading (width + r.schema.size)
    let next ← rows.mapM fun left => r.rows.mapM fun right => left.join right reached
    nestedLoops schema (width + r.schema.size) next.flatten rest

namespace Query

/-- The tables of a query, in order. -/
def relations (q : Query) (c : Catalog) : Except Error (List Relation) :=
  q.tables.mapM c.find

/-- **The blocks a query reads**, one number for each scan of a table. -/
def reads (m : Memory) : List Relation → List Nat
  | [] => []
  | outer :: inners =>
    outer.blockCount :: inners.map fun r => r.blockCount * m.passes outer.blockCount

/-- The rows a query starts from. -/
def sourceRows : List Relation → Except Error (List Row)
  | [] => .ok []
  | [only] => .ok only.rows
  | outer :: inners => do
    let schema ← Schema.qualified ((outer :: inners).map fun r => (r.name, r.schema))
    let head ← schema.leading outer.schema.size
    let first ← outer.rows.mapM fun row => row.withSchema head
    nestedLoops schema outer.schema.size first inners

/-- What `DISTINCT` compares: all values for all columns, else the values of the projected ones. -/
def key (q : Query) (row : Row) : Except Error (List Value) :=
  if Projection.isWildcard q.projection.headers then .ok row.values
  else q.projection.keys.mapM row.get

/-- **The rows of a query** over its tables. -/
def rows (q : Query) (tables : List Relation) : Except Error (List Row) := do
  let source ← sourceRows tables
  let kept ← keepRows (Condition.admits q.selection) source
  if q.distinct then firstRows q.key [] kept else .ok kept

end Query

end RelEngine
