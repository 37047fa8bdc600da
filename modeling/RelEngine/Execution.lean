import RelEngine.Event
import RelEngine.Execution.Query
import RelEngine.Output.Table
import RelEngine.Row.Build

/-!
# Running statements

A statement takes a catalog to what it leaves of it, a sequence of events, and either the lines it
prints or an error (`Effect`). Transfers of blocks are among the events and happen also when the
statement fails later.
-/

namespace RelEngine

/-- **What a statement did.** -/
structure Effect where
  catalog : Catalog
  events : List Event
  /-- The lines to print, or why the statement failed. -/
  result : Except Error (List String)

namespace Effect

/-- What is left of the catalog, and an error. -/
def failed (c : Catalog) (events : List Event) (e : Error) : Effect := ⟨c, events, .error e⟩

/-- A changed catalog and nothing to print. -/
def changed (c : Catalog) (events : List Event) : Effect := ⟨c, events, .ok []⟩

end Effect

/-- **The answer to a query**: what happened on the way, and the rows or why there are none. -/
structure Answer where
  events : List Event
  rows : Except Error (List Row)

/-- **Executing a query.** All blocks are read before anything but a missing table can fail. -/
def Query.execute (q : Query) (c : Catalog) (memory : Memory) : Answer :=
  match q.relations c with
  | .error e => ⟨[], .error e⟩
  | .ok tables =>
    let reads := (Query.reads memory tables).map (Event.transferred .read)
    match q.rows tables with
    | .error e => ⟨reads, .error e⟩
    | .ok rows => ⟨reads ++ [.selected q.tables rows.length], .ok rows⟩

namespace Catalog

/-- A table is made. -/
def runCreate (c : Catalog) (table : String) (fields : List Field) : Effect :=
  match c.register table fields with
  | .error e => .failed c [] e
  | .ok c' => .changed c' [.registered table fields.length, .created table]

/-- A row is added. A last block with room is read before it is written back. -/
def runInsert (c : Catalog) (table : String) (attributes literals : List String) : Effect :=
  match c.find table with
  | .error e => .failed c [] e
  | .ok r =>
    match Row.build r.schema attributes literals with
    | .error e => .failed c [] e
    | .ok row =>
      let reads := if r.lastBlockPartial then [Event.transferred .read 1] else []
      .changed (c.replace table (r.append row)) (reads ++ [.transferred .write 1, .inserted table])

/-- Rows are removed. All blocks are read, and those that are left are written back. -/
def runDelete (c : Catalog) (table : String) (selection : Option Condition) : Effect :=
  match c.find table with
  | .error e => .failed c [] e
  | .ok r =>
    -- the table is scanned before the condition can fail on any row
    let read := Event.transferred .read r.blockCount
    let scan := r.removeWhere (Condition.admits selection)
    match scan.2 with
    | .error e => .failed (c.replace table scan.1) [read] e
    | .ok n =>
      .changed (c.replace table scan.1)
        [read, .transferred .write scan.1.blockCount, .removed table n, .deleted n]

/-- A table is dropped. -/
def runDrop (c : Catalog) (table : String) : Effect :=
  match c.drop table with
  | .error e => .failed c [.dropping table] e
  | .ok (c', r) => .changed c' [.dropping table, .dropped table r.rows.length]

/-- A query is executed and its rows are laid out. -/
def runSelect (c : Catalog) (memory : Memory) (renderer : Renderer) (q : Query) : Effect :=
  let answer := q.execute c memory
  ⟨c, answer.events, answer.rows.bind fun rows => renderer.table rows q.projection⟩

/-- **Running a statement.** -/
def run (c : Catalog) (memory : Memory) (renderer : Renderer) : Statement → Effect
  | .create table fields => c.runCreate table fields
  | .insert table attributes literals => c.runInsert table attributes literals
  | .select query => c.runSelect memory renderer query
  | .delete table selection => c.runDelete table selection
  | .drop table => c.runDrop table

end Catalog

end RelEngine
