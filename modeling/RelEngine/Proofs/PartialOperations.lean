import RelEngine.Engine

/-!
# The engine on raw data

Some operations of the engine are not defined everywhere: a division by a count, the frames but one,
a place in a list, the front of a list. In the engine itself they are total, since its types carry
what they need: a schema has a field, a row has a value for each field, memory has two frames, and a
place is one of a schema. So nothing can go wrong there, and nothing shows whether something would
without the types.

Here the engine is written down once more on **raw** data, lists and numbers that carry nothing.
Every operation that is not defined everywhere asks for its condition at the moment it is executed,
and answers `none` when the condition does not hold. This answer goes through to the end: a run that
hits one such operation is `none` as a whole. An error of a statement is no such answer.

* `Raw.quotient`, `Raw.difference`, `Raw.upTo`, `Raw.put`, … — the operations with their conditions;
* `Raw.Run` — a computation that may fail with an error, or hit an operation that is not defined;
* `Raw.Engine.perform` — what a statement tree does to a raw engine;
* `Engine.raw` — the raw data of an engine.
-/

namespace RelEngine.Raw

/-! ### Operations with conditions -/

variable {α : Type}

/-- A quotient, unless the divisor is zero. -/
def quotient (n d : Nat) : Option Nat := if d = 0 then none else some (n / d)

/-- A quotient rounded up, unless the divisor is zero. -/
def quotientUp (n d : Nat) : Option Nat := if d = 0 then none else some ((n + d - 1) / d)

/-- What a division leaves, unless the divisor is zero. -/
def remainder (n d : Nat) : Option Nat := if d = 0 then none else some (n % d)

/-- A difference, unless it is below zero. -/
def difference (n m : Nat) : Option Nat := if m ≤ n then some (n - m) else none

/-- The first elements of a list, unless it has fewer. -/
def upTo (xs : List α) (n : Nat) : Option (List α) :=
  if n ≤ xs.length then some (xs.take n) else none

/-- A list with another element at a place, unless it has no such place. -/
def put (xs : List α) (i : Nat) (a : α) : Option (List α) :=
  if i < xs.length then some (xs.set i a) else none

/-- **A computation** that ends with a result or an error, or hits an operation that is not
defined. -/
abbrev Run (α : Type) : Type := ExceptT Error Option α

/-- A computation in which every operation is defined. -/
def settled (x : Except Error α) : Run α := ExceptT.mk (some x)

/-- A single operation with a condition. -/
def attempt (x : Option α) : Run α := ExceptT.mk (x.map .ok)

/-! ### Schemas -/

/-- Whether a name stands among the fields before its own; the rest begins at the `i`-th field. -/
def checkNames (fields : List Field) (i : Nat) : List Field → Run Unit
  | [] => settled (.ok ())
  | f :: rest => do
    -- the names before this one are a slice, and it has to lie within the list
    let before ← attempt (upTo fields i)
    if f.name ∈ before.map Field.name then settled (.error (.mismatch (.duplicateField f.name)))
    else checkNames fields (i + 1) rest

/-- The fields of a schema. -/
def checkFields (fields : List Field) : Run (List Field) :=
  if fields = [] then settled (.error (.mismatch .emptySchema))
  else do
    checkNames fields 0 fields
    settled (.ok fields)

/-- The place of a stored name. -/
def stored? (fields : List Field) (name : String) : Option Nat := fields.findIdx? (·.name == name)

/-- The places of the qualified fields with a given column part. -/
def carrying (fields : List Field) (column : String) : List Nat :=
  (fields.zipIdx.filter fun p =>
    p.1.name.toList.contains qualifier && columnPart p.1.name == column).map Prod.snd

/-- The place a reference resolves to. -/
def position (fields : List Field) (reference : String) : Except Error Nat :=
  match stored? fields reference with
  | some i => .ok i
  | none =>
    match Text.splitAtFirst referencePoint reference with
    | some (table, column) =>
      match stored? fields (qualify table column) with
      | some i => .ok i
      | none => .error (.columnNotFound reference)
    | none =>
      match carrying fields reference with
      | [] => .error (.columnNotFound reference)
      | [i] => .ok i
      | _ :: _ :: _ => .error (.ambiguousColumn reference)

/-- The declared type of the field a reference resolves to. -/
def typeOf (fields : List Field) (reference : String) : Run ColumnType := do
  let i ← settled (position fields reference)
  -- the place was found among the fields, which nothing here says
  let f ← attempt fields[i]?
  settled (.ok f.type)

/-- The schema of the first fields. -/
def leading (fields : List Field) (width : Nat) : Run (List Field) :=
  if width = fields.length then settled (.ok fields)
  else do
    let front ← attempt (upTo fields width)
    checkFields front

/-- The schema of a cross product. -/
def qualified (sources : List (String × List Field)) : Run (List Field) :=
  checkFields (sources.flatMap fun p =>
    p.2.map fun f => { f with name := qualify p.1 (columnPart f.name) })

/-! ### Rows -/

/-- **A raw row**: fields and values, which nothing holds together. -/
structure Row where
  fields : List Field
  values : List Value

/-- The row of these values, unless their number is not that of the fields. -/
def ofValues (fields : List Field) (values : List Value) : Except Error Row :=
  if values.length = fields.length then .ok ⟨fields, values⟩
  else .error (.mismatch (.arity fields.length values.length))

/-- The value a reference resolves to. -/
def get (r : Row) (reference : String) : Run Value := do
  let i ← settled (position r.fields reference)
  -- and the values may be fewer than the fields
  attempt r.values[i]?

/-- The values of two rows one after the other, under fields that cover both. -/
def join (r other : Row) (fields : List Field) : Except Error Row :=
  ofValues fields (r.values ++ other.values)

/-- The same values under other fields. -/
def withFields (r : Row) (fields : List Field) : Except Error Row := ofValues fields r.values

/-- The place a literal goes to: that of its attribute, or its own place in the list. -/
def target (fields : List Field) (attributes : List String) (i : Nat) : Except Error Nat :=
  match attributes[i]? with
  | some name => position fields name
  | none => .ok i

/-- Reads the literals from the `i`-th on into their places. -/
def assign (fields : List Field) (attributes : List String) (i : Nat)
    (slots : List (Option Value)) : List String → Run (List (Option Value))
  | [] => settled (.ok slots)
  | literal :: rest => do
    let place ← settled (target fields attributes i)
    -- without attributes the place is counted, and a count may run past the end
    let field ← attempt fields[place]?
    let slot ← attempt slots[place]?
    if slot.isSome then settled (.error (.mismatch (.givenTwice field.name)))
    else
      let value ← settled (field.type.read field.name literal)
      let slots ← attempt (put slots place (some value))
      assign fields attributes (i + 1) slots rest

/-- The values of all places, in order, unless one is empty. -/
def collect (fields : List Field) (slots : List (Option Value)) : Except Error (List Value) :=
  (slots.zip fields).mapM fun p =>
    match p.1 with
    | some v => .ok v
    | none => .error (.mismatch (.notGiven p.2.name))

/-- The row that literals describe. -/
def build (fields : List Field) (attributes literals : List String) : Run Row :=
  if !attributes.isEmpty && attributes.length != literals.length then
    settled (.error (.mismatch (.attributeCount attributes.length literals.length)))
  else if literals.length != fields.length then
    settled (.error (.mismatch (.arity fields.length literals.length)))
  else do
    let slots ← assign fields attributes 0 (List.replicate fields.length none) literals
    let values ← settled (collect fields slots)
    settled (ofValues fields values)

/-! ### Tables -/

/-- **A raw table.** -/
structure Table where
  name : String
  fields : List Field
  rows : List Row

/-- The tables of a raw catalog, each under its key. -/
abbrev Tables : Type := List (String × Table)

namespace Table

/-- How many rows share a block. -/
def rowsPerBlock (t : Table) : Option Nat := do
  let fitting ← quotient slotsPerBlock t.fields.length
  some (max 1 fitting)

/-- How many blocks the rows fill. -/
def blockCount (t : Table) : Option Nat := do
  let share ← t.rowsPerBlock
  quotientUp t.rows.length share

/-- Whether the last block has room for another row. -/
def lastBlockPartial (t : Table) : Option Bool := do
  let share ← t.rowsPerBlock
  let last ← remainder t.rows.length share
  some (last != 0)

/-- Removing the rows that a condition marks. -/
def removeWhere (t : Table) (condition : Row → Run Bool) : Option (Table × Except Error Nat) := do
  let scan ← (t.rows.mapM condition).run
  match scan with
  | .error e => some (t, .error e)
  | .ok marks =>
    let kept := (t.rows.zip marks).filter fun p => !p.2
    -- how many are gone is the difference of two counts
    let removed ← difference t.rows.length kept.length
    some ({ t with rows := kept.map Prod.fst }, .ok removed)

end Table

namespace Tables

/-- The table under a name, which has to exist. -/
def find (ts : Tables) (name : String) : Except Error Table :=
  match ts.lookup name with
  | some t => .ok t
  | none => .error (.tableNotFound name)

/-- Registering a table. -/
def register (ts : Tables) (name : String) (fields : List Field) : Run Tables :=
  match ts.lookup name with
  | some _ => settled (.error (.tableExists name))
  | none => do
    let fields ← checkFields fields
    settled (.ok (ts ++ [(name, ⟨name, fields, []⟩)]))

/-- The tables without the one under a name. -/
def erase (ts : Tables) (name : String) : Tables := ts.filter (·.1 != name)

/-- The tables with another in the place of the one under a name. -/
def replace (ts : Tables) (name : String) (t : Table) : Tables :=
  ts.map fun old => if old.1 = name then (old.1, t) else old

end Tables

/-! ### Memory -/

/-- The frames that hold a part of the outer table. -/
def outerFrames (frames : Nat) : Option Nat := difference frames 1

/-- How often the inner table is read while the outer one passes through memory. -/
def passes (frames outerBlocks : Nat) : Option Nat := do
  -- a single frame would leave none for the outer table, and nothing to divide by
  let outer ← outerFrames frames
  let loads ← quotientUp outerBlocks outer
  some (max 1 loads)

/-! ### Conditions -/

/-- What an operand denotes: the printed value of the field it resolves to, or itself when it names
no field. -/
def denote (row : Row) (operand : String) : Run String :=
  ExceptT.mk ((get row operand).run.map fun
    | .ok v => .ok v.print
    | .error (.columnNotFound _) => .ok operand
    | .error e => .error e)

/-- The truth of a condition on a row. -/
def holds (row : Row) : Condition → Run Bool
  | .equal l r => do
    let left ← denote row l
    let right ← denote row r
    settled (.ok (left == right))
  | .and a b => do
    if ← holds row a then holds row b else settled (.ok false)
  | .or a b => do
    if ← holds row a then settled (.ok true) else holds row b

/-- The truth of an optional condition. -/
def admits (condition : Option Condition) (row : Row) : Run Bool :=
  match condition with
  | some c => holds row c
  | none => settled (.ok true)

/-! ### Queries -/

/-- The rows that satisfy a condition. -/
def keepRows (condition : Row → Run Bool) : List Row → Run (List Row)
  | [] => settled (.ok [])
  | row :: rest => do
    if ← condition row then
      let kept ← keepRows condition rest
      settled (.ok (row :: kept))
    else keepRows condition rest

/-- The rows whose key differs from those of `seen` and of all rows before them. -/
def firstRows (key : Row → Run (List Value)) (seen : List (List Value)) :
    List Row → Run (List Row)
  | [] => settled (.ok [])
  | row :: rest => do
    let k ← key row
    if k ∈ seen then firstRows key seen rest
    else
      let kept ← firstRows key (k :: seen) rest
      settled (.ok (row :: kept))

/-- Nested loops over the tables that are still to be joined. -/
def nestedLoops (fields : List Field) (width : Nat) (rows : List Row) :
    List Table → Run (List Row)
  | [] => settled (.ok rows)
  | t :: rest => do
    -- the fields that have been joined so far are the first of the product's
    let reached ← leading fields (width + t.fields.length)
    let next ← settled (rows.mapM fun left => t.rows.mapM fun right => join left right reached)
    nestedLoops fields (width + t.fields.length) next.flatten rest

/-- The rows a query starts from. -/
def sourceRows : List Table → Run (List Row)
  | [] => settled (.ok [])
  | [only] => settled (.ok only.rows)
  | outer :: inners => do
    let fields ← qualified ((outer :: inners).map fun t => (t.name, t.fields))
    let head ← leading fields outer.fields.length
    let first ← settled (outer.rows.mapM fun row => withFields row head)
    nestedLoops fields outer.fields.length first inners

/-- The blocks a query reads, one number for each scan of a table. -/
def reads (frames : Nat) : List Table → Option (List Nat)
  | [] => some []
  | [only] => do
    let blocks ← only.blockCount
    some [blocks]
  | outer :: inners => do
    let blocks ← outer.blockCount
    -- each of the other tables is read once for every load of the outer one
    let times ← passes frames blocks
    let scans ← inners.mapM fun t => do
      let blocks ← t.blockCount
      some (blocks * times)
    some (blocks :: scans)

/-- What `DISTINCT` compares. -/
def key (q : Query) (row : Row) : Run (List Value) :=
  if Projection.isWildcard q.projection.headers then settled (.ok row.values)
  else q.projection.keys.mapM (get row)

/-- The rows of a query over its tables. -/
def rows (q : Query) (tables : List Table) : Run (List Row) := do
  let source ← sourceRows tables
  let kept ← keepRows (admits q.selection) source
  if q.distinct then firstRows (key q) [] kept else settled (.ok kept)

/-- The answer to a query. -/
structure Answer where
  events : List Event
  rows : Except Error (List Row)

/-- Executing a query. -/
def execute (q : Query) (ts : Tables) (frames : Nat) : Option Answer :=
  match q.tables.mapM ts.find with
  | .error e => some ⟨[], .error e⟩
  | .ok tables => do
    let scans ← reads frames tables
    let events := scans.map (Event.transferred .read)
    let result ← (rows q tables).run
    match result with
    | .error e => some ⟨events, .error e⟩
    | .ok rows => some ⟨events ++ [.selected q.tables rows.length], .ok rows⟩

/-! ### Printed tables -/

/-- The text of the field that a reference resolves to. -/
def fieldText (row : Row) (reference : String) : Run String := do
  let type ← typeOf row.fields reference
  let value ← get row reference
  settled (Renderer.shownValue reference type value)

/-- The line of one row. -/
def line (r : Renderer) (row : Row) (keys : List String) : Run String := do
  let references := if Projection.isWildcard keys then row.fields.map Field.name else keys
  let texts ← references.mapM (fieldText row)
  settled (.ok (r.cells texts))

/-- The header line. -/
def header (r : Renderer) (sample : Row) (headers : List String) : String :=
  if Projection.isWildcard headers then
    r.cells ((sample.fields.map Field.name).map columnPart)
  else r.cells headers

/-- The lines of a result. -/
def table (r : Renderer) (rows : List Row) (projection : Projection) : Run (List String) :=
  match rows with
  | [] => settled (.ok [])
  | sample :: _ => do
    let lines ← rows.mapM fun row => line r row projection.keys
    settled (.ok (s!"Rows returned: {rows.length}" :: header r sample projection.headers :: lines))

/-! ### Statements -/

/-- What a statement did. -/
structure Effect where
  tables : Tables
  events : List Event
  result : Except Error (List String)

namespace Tables

/-- A table is made. -/
def runCreate (ts : Tables) (table : String) (fields : List Field) : Option Effect := do
  let registered ← (ts.register table fields).run
  match registered with
  | .error e => some ⟨ts, [], .error e⟩
  | .ok ts' => some ⟨ts', [.registered table fields.length, .created table], .ok []⟩

/-- A row is added. -/
def runInsert (ts : Tables) (table : String) (attributes literals : List String) :
    Option Effect :=
  match ts.find table with
  | .error e => some ⟨ts, [], .error e⟩
  | .ok t => do
    let built ← (build t.fields attributes literals).run
    match built with
    | .error e => some ⟨ts, [], .error e⟩
    | .ok row =>
      let room ← t.lastBlockPartial
      let reads := if room then [Event.transferred .read 1] else []
      some ⟨ts.replace table { t with rows := t.rows ++ [row] },
        reads ++ [.transferred .write 1, .inserted table], .ok []⟩

/-- Rows are removed. -/
def runDelete (ts : Tables) (table : String) (selection : Option Condition) : Option Effect :=
  match ts.find table with
  | .error e => some ⟨ts, [], .error e⟩
  | .ok t => do
    -- the blocks are counted twice, since the removal may free some of them
    let before ← t.blockCount
    let scan ← t.removeWhere (admits selection)
    match scan.2 with
    | .error e => some ⟨ts.replace table scan.1, [.transferred .read before], .error e⟩
    | .ok n =>
      let after ← scan.1.blockCount
      some ⟨ts.replace table scan.1,
        [.transferred .read before, .transferred .write after, .removed table n, .deleted n],
        .ok []⟩

/-- A table is dropped. -/
def runDrop (ts : Tables) (table : String) : Effect :=
  match ts.find table with
  | .error e => ⟨ts, [.dropping table], .error e⟩
  | .ok t => ⟨ts.erase table, [.dropping table, .dropped table t.rows.length], .ok []⟩

/-- A query is executed and its rows are laid out. -/
def runSelect (ts : Tables) (frames : Nat) (renderer : Renderer) (q : Query) : Option Effect := do
  let answer ← execute q ts frames
  let printed ← (do
    let rows ← settled answer.rows
    table renderer rows q.projection : Run (List String)).run
  some ⟨ts, answer.events, printed⟩

/-- Running a statement. -/
def run (ts : Tables) (frames : Nat) (renderer : Renderer) : Statement → Option Effect
  | .create table fields => ts.runCreate table fields
  | .insert table attributes literals => ts.runInsert table attributes literals
  | .select query => ts.runSelect frames renderer query
  | .delete table selection => ts.runDelete table selection
  | .drop table => some (ts.runDrop table)

end Tables

/-! ### The engine -/

/-- **A raw engine.** -/
structure Engine where
  tables : Tables
  disk : Disk
  frames : Nat
  renderer : Renderer

/-- What running a statement leads to. -/
structure Outcome where
  engine : Engine
  events : List Event
  cost : Reading
  result : Except Error (List String)

/-- What has been added since an earlier reading, unless the blocks have become fewer. -/
def since (now earlier : Reading) : Option Reading := do
  let ios ← difference now.ios earlier.ios
  some ⟨ios, atLeastZero (now.time - earlier.time)⟩

namespace Engine

/-- An engine without tables. -/
def ofSettings (s : Settings) : Engine :=
  { tables := []
    disk := .ofLatency s.diskLatency
    frames := max 2 s.memoryBlocks
    renderer := .ofSettings s }

/-- **What a statement tree does to a raw engine.** -/
def perform (e : Engine) (tree : Tree) : Option Outcome := do
  let effect ← match Statement.ofTree tree with
    -- a tree that is no statement changes nothing, and costs nothing
    | .error err => some ⟨e.tables, [], .error err⟩
    | .ok statement => do
      let effect ← e.tables.run e.frames e.renderer statement
      some { effect with events := .executing statement.keyword tree :: effect.events }
  let disk := e.disk.after effect.events
  let cost ← since disk.counters e.disk.counters
  some { engine := { e with tables := effect.tables, disk := disk }
         events := .lowering tree :: effect.events
         cost := cost
         result := effect.result }

/-- The raw engine after some trees, performed one after the other. -/
def performs (e : Engine) : List Tree → Option Engine
  | [] => some e
  | tree :: rest => do
    let outcome ← e.perform tree
    outcome.engine.performs rest

end Engine

end RelEngine.Raw

/-! ### The raw data of an engine -/

namespace RelEngine

/-- The fields and the values of a row. -/
def Row.raw (r : Row) : Raw.Row := ⟨r.schema.fields, r.values⟩

/-- The raw data of a table. -/
def Relation.raw (r : Relation) : Raw.Table := ⟨r.name, r.schema.fields, r.rows.map Row.raw⟩

/-- The raw data of a catalog. -/
def Catalog.raw (c : Catalog) : Raw.Tables := c.entries.map fun p => (p.1, p.2.raw)

/-- The raw data of what a statement did. -/
def Effect.raw (e : Effect) : Raw.Effect := ⟨e.catalog.raw, e.events, e.result⟩

/-- **The raw data of an engine.** -/
def Engine.raw (e : Engine) : Raw.Engine := ⟨e.catalog.raw, e.disk, e.memory.frames, e.renderer⟩

/-- The raw data of what running a statement leads to. -/
def Outcome.raw (o : Outcome) : Raw.Outcome := ⟨o.engine.raw, o.events, o.cost, o.result⟩

end RelEngine
