import Mathlib.Algebra.BigOperators.Ring.List
import Mathlib.Algebra.Order.Floor.Div
import RelEngine.Proofs.ConditionMeaning
import RelEngine.Proofs.Delivery

/-!
# Blocks transferred

Each statement has a price in blocks, which is fixed by the tables that it names and by the size of
memory (`Engine.Transfers`). It is said here without the executors: nothing for a tree that is
refused before it gets to a table, one block or two for a new row, a table once or twice for a
deletion, and for a query the first table once and every other one as often as the first one has to
be loaded into memory. Columns, conditions and `DISTINCT` have no part in it, nor has what becomes
of a query after it has read its tables.

The disk does not keep such prices. It counts the transfers among the events of a statement, and
these are spread over the executors, before and after the points where a statement can fail. So the
count is read off the events once (`Engine.ios_perform`) and compared with the price kind by kind.

* `Relation.blockCount_eq`, `Memory.passes_eq` — the divisions are rounded up;
* `Engine.exists_transfers`, `Engine.Transfers.transferred_eq` — every tree has a price, and it is
  what the events of the tree transfer;
* `Engine.execute_transfers` — the counter goes up by the price, and the report prints it.
-/

namespace RelEngine

/-! ### Blocks -/

/-- The blocks that some rows of so many fields fill: eight fields lie in a block, and a row at
least. -/
def blocksFor (rows fields : Nat) : Nat := rows ⌈/⌉ max 1 (8 / fields)

/-- The blocks of a table. -/
def Relation.blocks (r : Relation) : Nat := blocksFor r.rows.length r.schema.fields.length

/-- The blocks that the engine counts are the rows by the rows in a block, rounded up. -/
theorem Relation.blockCount_eq (r : Relation) : r.blockCount = r.blocks :=
  (Nat.ceilDiv_eq_add_pred_div _ _).symm

/-- There is room in the last block when the rows do not fill all blocks. -/
theorem Relation.lastBlockPartial_iff {r : Relation} :
    r.lastBlockPartial = true ↔ ¬ max 1 (8 / r.schema.fields.length) ∣ r.rows.length := by
  rw [lastBlockPartial, bne_iff_ne, Nat.dvd_iff_mod_eq_zero]
  rfl

/-- The passes over the inner tables: one frame is theirs, and the others take the blocks of the
outer table, a load at a time. -/
theorem Memory.passes_eq (m : Memory) (blocks : Nat) :
    m.passes blocks = max 1 (blocks ⌈/⌉ (m.frames - 1)) := by
  rw [Nat.ceilDiv_eq_add_pred_div]
  rfl

/-- The tables that a statement names. -/
def Statement.tables : Statement → List String
  | create table _ => [table]
  | insert table _ _ => [table]
  | select q => q.tables
  | delete table _ => [table]
  | drop table => [table]

/-! ### Prices -/

/-- **The price of a tree** in blocks. -/
inductive Engine.Transfers (e : Engine) (tree : Tree) : Nat → Prop
  /-- What is no statement costs nothing. -/
  | unlowered {err : Error} (h : Statement.ofTree tree = .error err) : Transfers e tree 0
  /-- Nor does making a table. -/
  | create {table : String} {fields : List Field}
      (h : Statement.ofTree tree = .ok (.create table fields)) : Transfers e tree 0
  /-- Nor does dropping one. -/
  | drop {table : String} (h : Statement.ofTree tree = .ok (.drop table)) : Transfers e tree 0
  /-- Nor does any statement that names a table which is not there. -/
  | missing {s : Statement} {table : String} (h : Statement.ofTree tree = .ok s)
      (named : table ∈ s.tables) (absent : e.catalog.find? table = none) : Transfers e tree 0
  /-- Nor does a row that is refused. -/
  | refused {table : String} {attributes literals : List String} {err : Error}
      (h : Statement.ofTree tree = .ok (.insert table attributes literals))
      (failed : (e.perform tree).result = .error err) : Transfers e tree 0
  /-- Behind full blocks a row begins a new one. -/
  | newBlock {table : String} {attributes literals lines : List String} {r : Relation}
      (h : Statement.ofTree tree = .ok (.insert table attributes literals))
      (done : (e.perform tree).result = .ok lines) (there : e.catalog.find? table = some r)
      (full : max 1 (8 / r.schema.fields.length) ∣ r.rows.length) : Transfers e tree 1
  /-- A last block with room is read and written back. -/
  | lastBlock {table : String} {attributes literals lines : List String} {r : Relation}
      (h : Statement.ofTree tree = .ok (.insert table attributes literals))
      (done : (e.perform tree).result = .ok lines) (there : e.catalog.find? table = some r)
      (room : ¬ max 1 (8 / r.schema.fields.length) ∣ r.rows.length) : Transfers e tree 2
  /-- A deletion reads the table and writes back what is left. -/
  | delete {table : String} {selection : Option Condition} {r : Relation} {p : Row → Bool}
      (h : Statement.ofTree tree = .ok (.delete table selection))
      (there : e.catalog.find? table = some r)
      (decided : ∀ row ∈ r.rows, Condition.admits selection row = .ok (p row)) :
      Transfers e tree
        (r.blocks + blocksFor (r.rows.filter fun row => !p row).length r.schema.fields.length)
  /-- When its condition fails it has read the table. -/
  | undecided {table : String} {selection : Option Condition} {r : Relation} {row : Row}
      {err : Error}
      (h : Statement.ofTree tree = .ok (.delete table selection))
      (there : e.catalog.find? table = some r) (member : row ∈ r.rows)
      (failed : Condition.admits selection row = .error err) : Transfers e tree r.blocks
  /-- A query over one table reads it. -/
  | single {q : Query} {r : Relation} (h : Statement.ofTree tree = .ok (.select q))
      (there : List.Forall₂ (fun name r => e.catalog.find? name = some r) q.tables [r]) :
      Transfers e tree r.blocks
  /-- A query over several reads the first, and all others once for each load of the first one into
  memory, where one frame is kept free. -/
  | several {q : Query} {outer inner : Relation} {inners : List Relation}
      (h : Statement.ofTree tree = .ok (.select q))
      (there : List.Forall₂ (fun name r => e.catalog.find? name = some r) q.tables
        (outer :: inner :: inners)) :
      Transfers e tree (outer.blocks + max 1 (outer.blocks ⌈/⌉ (e.memory.frames - 1)) *
        ((inner :: inners).map Relation.blocks).sum)

/-! ### Counting -/

/-- The blocks that some events transfer. -/
def transferred (events : List Event) : Nat := (events.filterMap Event.blocks).sum

theorem transferred_append (events events' : List Event) :
    transferred (events ++ events') = transferred events + transferred events' := by
  rw [transferred, List.filterMap_append, List.sum_append, transferred, transferred]

/-- The counter goes up by all that was transferred, event by event. -/
theorem Disk.ios_after (d : Disk) (events : List Event) :
    (d.after events).counters.ios = d.counters.ios + transferred events := by
  unfold after transferred
  induction events.filterMap Event.blocks generalizing d with
  | nil => rfl
  | cons n rest ih => rw [List.foldl_cons, ih, ios_transfer, List.sum_cons, Nat.add_assoc]

namespace Engine

variable {e : Engine} {tree : Tree}

theorem ios_perform (e : Engine) (tree : Tree) :
    (e.perform tree).engine.disk.counters.ios
      = e.disk.counters.ios + transferred (e.perform tree).events := by
  unfold perform
  exact e.disk.ios_after _

/-- What is reported as the cost of a statement is the difference of the counter, so it is what
that statement transferred. -/
theorem cost_perform (e : Engine) (tree : Tree) :
    (e.perform tree).cost.ios = transferred (e.perform tree).events := by
  change (e.perform tree).engine.disk.counters.ios - e.disk.counters.ios = _
  rw [ios_perform, Nat.add_sub_cancel_left]

/-- Lowering and routing transfer nothing. -/
theorem transferred_perform {s : Statement} (h : Statement.ofTree tree = .ok s) :
    transferred (e.perform tree).events
      = transferred (e.catalog.run e.memory e.renderer s).events := by
  rw [perform_events_of_ok h]
  rfl

end Engine

/-! ### Statements of each kind -/

namespace Query

variable {q : Query} {c : Catalog}

/-- The reads of a query: the first table once, and every other one in each pass over it. -/
theorem sum_reads (m : Memory) (outer : Relation) (inners : List Relation) :
    (reads m (outer :: inners)).sum
      = outer.blocks + max 1 (outer.blocks ⌈/⌉ (m.frames - 1)) * (inners.map Relation.blocks).sum := by
  -- the passes are the same for all inner tables
  have each : (inners.map fun r => r.blockCount * m.passes outer.blockCount)
      = inners.map fun r => m.passes outer.blockCount * r.blocks :=
    List.map_congr_left fun r _ => by rw [Relation.blockCount_eq, Nat.mul_comm]
  rw [reads, List.sum_cons, each, List.sum_map_mul_left, Memory.passes_eq, Relation.blockCount_eq]

/-- Once its tables are found a query has read them, whatever comes then. -/
theorem blocks_execute {tables : List Relation} (m : Memory) (there : q.relations c = .ok tables) :
    (q.execute c m).events.filterMap Event.blocks = reads m tables := by
  have scans : ((reads m tables).map (Event.transferred .read)).filterMap Event.blocks
      = reads m tables := by
    rw [List.filterMap_map]
    exact List.filterMap_some
  rw [execute, there]
  dsimp only
  cases q.rows tables with
  | error e => exact scans
  | ok rows =>
    rw [List.filterMap_append, scans]
    exact List.append_nil _

/-- A query transfers its reads, whether it gives rows or fails over them. -/
theorem transferred_execute {tables : List Relation} (m : Memory)
    (there : q.relations c = .ok tables) :
    transferred (q.execute c m).events = (reads m tables).sum := by
  rw [transferred, blocks_execute m there]

end Query

namespace Catalog

variable (c : Catalog)

/-- A new table has no blocks yet, and one that is there already is not looked at. -/
theorem transferred_runCreate (table : String) (fields : List Field) :
    transferred (c.runCreate table fields).events = 0 := by
  unfold runCreate
  split <;> rfl

theorem transferred_runDrop (table : String) : transferred (c.runDrop table).events = 0 := by
  unfold runDrop
  split <;> rfl

variable {c : Catalog} {table : String} {r : Relation}

/-- A statement reads all tables that it names, or none. -/
theorem transferred_run_of_missing {s : Statement} (m : Memory) (renderer : Renderer)
    (named : table ∈ s.tables) (absent : c.find? table = none) :
    transferred (c.run m renderer s).events = 0 := by
  have lost : c.find table = .error (.tableNotFound table) := by rw [find, absent]
  cases s with
  | create other fields => exact c.transferred_runCreate other fields
  | insert other attributes literals =>
    obtain rfl := List.mem_singleton.1 named
    change transferred (c.runInsert table attributes literals).events = 0
    rw [runInsert, lost]
    rfl
  | select q =>
    change transferred (q.execute c m).events = 0
    cases there : q.relations c with
    | error e =>
      rw [Query.execute, there]
      rfl
    | ok tables =>
      -- all tables were found, and the missing one was among them
      obtain ⟨r, -, found⟩ := exists_of_mem_right (Query.relations_eq_ok_iff.1 there).flip named
      rw [absent] at found
      cases found
  | delete other selection =>
    obtain rfl := List.mem_singleton.1 named
    change transferred (c.runDelete table selection).events = 0
    rw [runDelete, lost]
    rfl
  | drop other => exact c.transferred_runDrop other

/-- A row that cannot be built, or has no table, is not written. -/
theorem transferred_runInsert_of_refused {attributes literals : List String} {err : Error}
    (failed : (c.runInsert table attributes literals).result = .error err) :
    transferred (c.runInsert table attributes literals).events = 0 := by
  unfold runInsert at failed ⊢
  split
  · rfl
  · next r there =>
    rw [there] at failed
    dsimp only at failed
    split
    · rfl
    · next row built =>
      -- a row that was built is stored, so there was no error
      rw [built] at failed
      cases failed

/-- An inserted row goes into the last block, which is read before, or into a new one. -/
theorem transferred_runInsert {attributes literals lines : List String}
    (there : c.find? table = some r)
    (done : (c.runInsert table attributes literals).result = .ok lines) :
    transferred (c.runInsert table attributes literals).events
      = if r.lastBlockPartial then 2 else 1 := by
  rw [runInsert, find_eq_ok_iff.2 there] at done ⊢
  dsimp only at done ⊢
  cases built : Row.build r.schema attributes literals with
  | error err =>
    rw [built] at done
    cases done
  | ok row =>
    dsimp only
    -- the read stands before the write or is not there
    change transferred (_ ++ _) = _
    rw [transferred_append]
    cases r.lastBlockPartial <;> rfl

/-- A deletion that fails over a row has read the table by then. -/
theorem transferred_runDelete_of_failed {selection : Option Condition} {err : Error}
    (there : c.find? table = some r)
    (failed : r.rows.mapM (Condition.admits selection) = .error err) :
    transferred (c.runDelete table selection).events = r.blocks := by
  rw [runDelete, find_eq_ok_iff.2 there]
  dsimp only
  rw [Relation.removeWhere, failed]
  exact r.blockCount_eq

/-- A deletion reads the table and writes what it leaves. -/
theorem transferred_runDelete {selection : Option Condition} {p : Row → Bool}
    (there : c.find? table = some r)
    (decided : ∀ row ∈ r.rows, Condition.admits selection row = .ok (p row)) :
    transferred (c.runDelete table selection).events
      = r.blocks + blocksFor (r.rows.filter fun row => !p row).length r.schema.fields.length := by
  rw [runDelete_eq_of_decided there decided]
  change r.blockCount + (Relation.blockCount _ + 0) = _
  rw [Relation.blockCount_eq, Relation.blockCount_eq]
  rfl

end Catalog

namespace Engine

variable {e : Engine} {tree : Tree}

/-- **Every tree has a price.** -/
theorem exists_transfers (e : Engine) (tree : Tree) : ∃ n, e.Transfers tree n := by
  -- one price for each way that a statement can go
  cases lowered : Statement.ofTree tree with
  | error err => exact ⟨0, .unlowered lowered⟩
  | ok s =>
    cases s with
    | create table fields => exact ⟨0, .create lowered⟩
    | insert table attributes literals =>
      cases there : e.catalog.find? table with
      | none => exact ⟨0, .missing lowered (List.mem_singleton_self table) there⟩
      | some r =>
        cases ended : (e.perform tree).result with
        | error err => exact ⟨0, .refused lowered ended⟩
        | ok lines =>
          -- the row count decides between a new block and the last one
          by_cases full : max 1 (8 / r.schema.fields.length) ∣ r.rows.length
          · exact ⟨1, .newBlock lowered ended there full⟩
          · exact ⟨2, .lastBlock lowered ended there full⟩
    | select q =>
      cases there : q.relations e.catalog with
      | error err =>
        -- a table was looked for in vain
        obtain ⟨before, name, after, names, -, lost⟩ := mapM_eq_error_iff.1 there
        have named : name ∈ (Statement.select q).tables := by
          change name ∈ q.tables
          rw [names]
          simp
        refine ⟨0, .missing lowered named ?_⟩
        cases found : e.catalog.find? name with
        | none => rfl
        | some r =>
          rw [Catalog.find_eq_ok_iff.2 found] at lost
          cases lost
      | ok tables =>
        rw [Query.relations_eq_ok_iff] at there
        -- a query over one table reads it once, and over several it runs nested loops
        match tables, there with
        | [], there =>
          have named := (Statement.loweredFrom_of_select lowered).named
          exact absurd (List.forall₂_nil_right_iff.1 there) named
        | [r], there => exact ⟨_, .single lowered there⟩
        | outer :: inner :: inners, there => exact ⟨_, .several lowered there⟩
    | delete table selection =>
      cases there : e.catalog.find? table with
      | none => exact ⟨0, .missing lowered (List.mem_singleton_self table) there⟩
      | some r =>
        cases scan : r.rows.mapM (Condition.admits selection) with
        | error err =>
          obtain ⟨before, row, after, rows, -, fails⟩ := mapM_eq_error_iff.1 scan
          exact ⟨_, .undecided lowered there (by simp [rows]) fails⟩
        | ok marks =>
          exact ⟨_, .delete lowered there fun row member => eq_ok_affirmed_of_mapM scan member⟩
    | drop table => exact ⟨0, .drop lowered⟩

/-- **The price is what is transferred.** -/
theorem Transfers.transferred_eq {n : Nat} (h : e.Transfers tree n) :
    transferred (e.perform tree).events = n := by
  -- each price is what the events of that way add up to
  cases h with
  | unlowered h =>
    rw [perform_events_of_error h]
    rfl
  | create h =>
    rw [transferred_perform h]
    exact Catalog.transferred_runCreate ..
  | drop h =>
    rw [transferred_perform h]
    exact Catalog.transferred_runDrop ..
  | missing h named absent =>
    rw [transferred_perform h]
    exact Catalog.transferred_run_of_missing _ _ named absent
  | refused h failed =>
    rw [perform_result_of_ok h] at failed
    rw [transferred_perform h]
    exact Catalog.transferred_runInsert_of_refused failed
  | newBlock h done there full =>
    rw [perform_result_of_ok h] at done
    rw [transferred_perform h]
    refine (Catalog.transferred_runInsert there done).trans (if_neg ?_)
    rw [Relation.lastBlockPartial_iff]
    exact not_not_intro full
  | lastBlock h done there room =>
    rw [perform_result_of_ok h] at done
    rw [transferred_perform h]
    exact (Catalog.transferred_runInsert there done).trans
      (if_pos (Relation.lastBlockPartial_iff.2 room))
  | delete h there decided =>
    rw [transferred_perform h]
    exact Catalog.transferred_runDelete there decided
  | @undecided table selection r row err h there member failed =>
    rw [transferred_perform h]
    -- a row fails, so the scan does
    cases scan : r.rows.mapM (Condition.admits selection) with
    | error first => exact Catalog.transferred_runDelete_of_failed there scan
    | ok marks =>
      have answer := eq_ok_affirmed_of_mapM scan member
      rw [failed] at answer
      cases answer
  | single h there =>
    rw [transferred_perform h]
    refine (Query.transferred_execute _ (Query.relations_eq_ok_iff.2 there)).trans ?_
    -- there are no inner tables, so no passes count
    rw [Query.sum_reads, List.map_nil, List.sum_nil, Nat.mul_zero, Nat.add_zero]
  | several h there =>
    rw [transferred_perform h]
    exact (Query.transferred_execute _ (Query.relations_eq_ok_iff.2 there)).trans (Query.sum_reads ..)

/-- **Exact accounting.** Every tree has one price. The counter of the disk goes up by it, whatever
becomes of the statement and of its output, and it is the number in the report, which is put into
the sink behind what the sink has taken of the printed lines. -/
theorem execute_transfers {σ : Type} [Sink σ] (e : Engine) (tree : Tree) (elapsed : Nat) (out : σ) :
    ∃ n, e.Transfers tree n ∧ (∀ m, e.Transfers tree m → m = n) ∧
      (e.execute elapsed tree out).engine.disk.counters.ios = e.disk.counters.ios + n ∧
      ∃ computer calculated, (e.execute elapsed tree out).sink
        = (Sink.putLines (Sink.print out (e.perform tree).result).1
            [computer, calculated, "Calculated Disk I/Os = " ++ toString n, ""]).1 := by
  obtain ⟨n, price⟩ := e.exists_transfers tree
  have counted := price.transferred_eq
  refine ⟨n, price, fun m other => ?_, ?_, ?_⟩
  · -- two prices are both what was transferred
    rw [← other.transferred_eq, counted]
  · rw [execute, Outcome.deliver_engine, ios_perform, counted]
  · -- the third line of the report has the number
    have third : ∃ computer calculated, (e.perform tree).report elapsed
        = [computer, calculated, "Calculated Disk I/Os = " ++ toString n, ""] := by
      rw [← counted, ← cost_perform]
      exact ⟨_, _, rfl⟩
    obtain ⟨computer, calculated, report⟩ := third
    refine ⟨computer, calculated, ?_⟩
    rw [execute, Outcome.deliver_sink, report]

/-- Two frames of memory, and a table that fills two blocks. Joined with itself it is read once and
then twice more, once for each of its blocks, although no rows come of it. -/
theorem execute_transfers_repeated :
    let e := (ofSettings { Settings.standard with memoryBlocks := 2 }).calls
      ([.node "CREATE" [.node "TABLE" [.leaf "t"],
          .node "ATTRIBUTES" [.node "ATTRIBUTE" [.leaf "a", .leaf "INT"],
            .node "ATTRIBUTE" [.leaf "b", .leaf "INT"], .node "ATTRIBUTE" [.leaf "c", .leaf "INT"],
            .node "ATTRIBUTE" [.leaf "d", .leaf "INT"], .node "ATTRIBUTE" [.leaf "e", .leaf "INT"]]],
        .node "INSERT" [.node "TABLE" [.leaf "t"],
          .node "VALUES" [.leaf "1", .leaf "2", .leaf "3", .leaf "4", .leaf "5"]],
        .node "INSERT" [.node "TABLE" [.leaf "t"],
          .node "VALUES" [.leaf "6", .leaf "7", .leaf "8", .leaf "9", .leaf "0"]]].map
        fun tree => .execute 0 tree Transcript.unlimited)
    let query : Tree := .node "SELECT" [.node "COLUMNS" [.node "COLUMN" [.leaf "*"]],
      .node "FROM" [.node "TABLE" [.leaf "t"], .node "TABLE" [.leaf "t"]]]
    e.Transfers query 6 ∧
      (e.perform query).result = .error (.mismatch (.duplicateField "t#a")) ∧
      (e.execute 0 query (Transcript.limited 0)).engine.disk.counters.ios
        = e.disk.counters.ios + 6 := by
  intro e query
  let s : Schema := ⟨[⟨"a", .int⟩, ⟨"b", .int⟩, ⟨"c", .int⟩, ⟨"d", .int⟩, ⟨"e", .int⟩],
    by decide, by decide⟩
  let t : Relation := ⟨"t", s, [⟨s, [.int 1, .int 2, .int 3, .int 4, .int 5], rfl⟩,
    ⟨s, [.int 6, .int 7, .int 8, .int 9, .int 0], rfl⟩]⟩
  have there : List.Forall₂ (fun name r => e.catalog.find? name = some r) ["t", "t"] [t, t] := by
    decide +kernel
  have lowered :
      Statement.ofTree query = .ok (.select ⟨⟨["*"], ["*"]⟩, false, ["t", "t"], none⟩) := by
    decide +kernel
  -- each block holds one row, so two blocks, and two passes over two more
  have total : t.blocks + max 1 (t.blocks ⌈/⌉ (e.memory.frames - 1)) * ([t].map Relation.blocks).sum
      = 6 := by
    decide +kernel
  have price : e.Transfers query 6 := by
    rw [← total]
    exact .several lowered there
  obtain ⟨n, -, only, counted, -⟩ := execute_transfers e query 0 (Transcript.limited 0)
  rw [← only 6 price] at counted
  exact ⟨price, by decide +kernel, counted⟩

end Engine

end RelEngine
