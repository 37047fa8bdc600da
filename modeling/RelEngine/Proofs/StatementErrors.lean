import RelEngine.Execution
import RelEngine.Proofs.Results

/-!
# Errors of statements

The errors of input and output come from the world outside: from a sink that takes no more text, and
from bytes that are no text. A statement does not produce them. Neither lowering a tree nor running
a statement fails with one (`Statement.ofTree_failsOnly`, `Catalog.run_failsOnly`), so an error of
output that a caller sees is one of writing, and the statement itself has succeeded by then.

Each function gets the bound from those that it calls, level by level. Looking up a reference has a
closer bound (`Error.IsName`), and so has all that does nothing else that could fail: a condition on
a row, and what is done with the rows that a query starts from.
-/

namespace RelEngine

/-- **Errors of input and output.** -/
def Error.IsIo : Error → Prop
  | .outputClosed | .inputNotText => True
  | _ => False

/-- **The errors a statement can end with.** -/
def Error.OfStatement (e : Error) : Prop := ¬ e.IsIo

/-- **Errors of a reference**: it names no field, or more than one. -/
def Error.IsName : Error → Prop
  | .columnNotFound _ | .ambiguousColumn _ => True
  | _ => False

/-- Errors of name resolution are errors of statements. -/
theorem Error.IsName.ofStatement {e : Error} (h : e.IsName) : e.OfStatement := by
  intro io
  cases e with
  | columnNotFound _ => exact io
  | ambiguousColumn _ => exact io
  | _ => exact h

/-- What fails only over references fails only with errors of statements. -/
theorem FailsOnly.ofStatement {α : Type} {x : Except Error α} (h : FailsOnly Error.IsName x) :
    FailsOnly Error.OfStatement x :=
  h.mono fun _ => Error.IsName.ofStatement

/-! ### Lowering -/

namespace Tree

/-- A node in the place of a leaf is an error of the statement. -/
theorem leafText_failsOnly (t : Tree) : FailsOnly Error.OfStatement t.leafText := by
  unfold leafText
  split
  · exact failsOnly_ok _
  · exact failsOnly_error.2 id

/-- A wrapper without exactly one branch is an error of the statement. -/
theorem wrappedText_failsOnly (t : Tree) : FailsOnly Error.OfStatement t.wrappedText := by
  unfold wrappedText
  split
  · exact leafText_failsOnly _
  · exact failsOnly_error.2 id

/-- So is a clause that the statement lacks. -/
theorem required_failsOnly (t : Tree) (statement clause : Keyword) :
    FailsOnly Error.OfStatement (t.required statement clause) := by
  unfold required
  split
  · exact failsOnly_ok _
  · exact failsOnly_error.2 id

/-- The name of a table fails over its clause or over the wrapper in it. -/
theorem tableName_failsOnly (t : Tree) (statement : Keyword) :
    FailsOnly Error.OfStatement (t.tableName statement) :=
  (required_failsOnly t statement .table).bind fun clause => wrappedText_failsOnly clause

/-- A declaration fails over its shape, its leaves or the name of its type. -/
theorem declaredField_failsOnly (t : Tree) : FailsOnly Error.OfStatement t.declaredField := by
  unfold declaredField
  split
  · -- a name and a type, and the type has to be one that there is
    split
    · refine (leafText_failsOnly _).bind fun name => (leafText_failsOnly _).bind fun type => ?_
      split
      · exact failsOnly_ok _
      · exact failsOnly_error.2 id
    · exact failsOnly_error.2 id
  · exact failsOnly_error.2 id

end Tree

/-- Whatever is wrong with the tree of a condition, and however deep it stands, is an error of the
statement. -/
theorem Condition.ofTree_failsOnly (t : Tree) :
    FailsOnly Error.OfStatement (Condition.ofTree t) := by
  -- on the tree, since a connective asks for the conditions of its two branches
  induction t with
  | node kind branches ih =>
    unfold Condition.ofTree
    split
    · next k a b same =>
      obtain ⟨rfl, rfl⟩ := Tree.node.inj same
      have left := ih a (by simp)
      have right := ih b (by simp)
      dsimp only
      -- a comparison, a conjunction, a disjunction or none of them
      split
      · exact a.leafText_failsOnly.bind fun _ => b.leafText_failsOnly.bind fun _ => failsOnly_ok _
      split
      · exact left.bind fun _ => right.bind fun _ => failsOnly_ok _
      split
      · exact left.bind fun _ => right.bind fun _ => failsOnly_ok _
      · exact failsOnly_error.2 id
    · exact failsOnly_error.2 id

theorem Tree.selection_failsOnly (t : Tree) : FailsOnly Error.OfStatement t.selection := by
  unfold Tree.selection
  split
  · exact failsOnly_ok _
  split
  · exact failsOnly_error.2 id
  · exact (Condition.ofTree_failsOnly _).map some

namespace Projection

/-- An entry of a column list fails when it is empty, or when its reference has two points. -/
theorem reference_failsOnly (entry : Tree) : FailsOnly Error.OfStatement (reference entry) := by
  unfold reference
  split
  · exact failsOnly_error.2 id
  split
  · exact failsOnly_ok _
  · exact failsOnly_error.2 id

/-- A column list fails over a missing clause, over an entry, or because it has none. -/
theorem ofTree_failsOnly (t : Tree) : FailsOnly Error.OfStatement (ofTree t) := by
  refine (t.required_failsOnly .select .columns).bind fun columns => ?_
  refine (t.required_failsOnly .select .sources).bind fun sources => ?_
  dsimp only
  split
  · exact failsOnly_error.2 id
  · exact (FailsOnly.mapM fun entry _ => reference_failsOnly entry).bind fun _ => failsOnly_ok _

end Projection

namespace Statement

theorem createOfTree_failsOnly (t : Tree) : FailsOnly Error.OfStatement (createOfTree t) := by
  refine (t.tableName_failsOnly .create).bind fun table => ?_
  refine (t.required_failsOnly .create .attributes).bind fun clause => ?_
  exact (FailsOnly.mapM fun a _ => a.declaredField_failsOnly).bind fun _ => failsOnly_ok _

/-- An insertion fails over its table, its attributes or its literals; only the attributes may be
missing. -/
theorem insertOfTree_failsOnly (t : Tree) : FailsOnly Error.OfStatement (insertOfTree t) := by
  have texts : ∀ clause : Tree, FailsOnly Error.OfStatement (clause.branches.mapM Tree.leafText) :=
    fun clause => FailsOnly.mapM fun leaf _ => leaf.leafText_failsOnly
  -- what follows the attributes, given or not
  have rest : ∀ table attributes, FailsOnly Error.OfStatement (do
      let literals ← (← t.required .insert .values).branches.mapM Tree.leafText
      .ok (Statement.insert table attributes literals)) := fun table attributes =>
    (t.required_failsOnly .insert .values).bind fun clause =>
      (texts clause).bind fun _ => failsOnly_ok _
  refine (t.tableName_failsOnly .insert).bind fun table => ?_
  dsimp only
  split
  · exact (texts _).bind fun attributes => rest table attributes
  · exact rest table []

/-- A query fails over its columns, its sources or its condition. -/
theorem selectOfTree_failsOnly (t : Tree) : FailsOnly Error.OfStatement (selectOfTree t) := by
  refine (Projection.ofTree_failsOnly t).bind fun projection => ?_
  refine (t.required_failsOnly .select .columns).bind fun columns => ?_
  refine (t.required_failsOnly .select .sources).bind fun sources => ?_
  refine (FailsOnly.mapM fun source _ => source.wrappedText_failsOnly).bind fun tables => ?_
  dsimp only
  -- no source at all is an error, and a single one only changes the condition
  split
  · exact failsOnly_error.2 id
  · exact t.selection_failsOnly.bind fun _ => failsOnly_ok _
  · exact t.selection_failsOnly.bind fun _ => failsOnly_ok _

theorem deleteOfTree_failsOnly (t : Tree) : FailsOnly Error.OfStatement (deleteOfTree t) :=
  (t.tableName_failsOnly .delete).bind fun _ => t.selection_failsOnly.bind fun _ => failsOnly_ok _

theorem dropOfTree_failsOnly (t : Tree) : FailsOnly Error.OfStatement (dropOfTree t) :=
  (t.tableName_failsOnly .drop).bind fun _ => failsOnly_ok _

/-- **Lowering a tree** fails with no error of input or output. -/
theorem ofTree_failsOnly (t : Tree) : FailsOnly Error.OfStatement (ofTree t) := by
  unfold ofTree
  split
  · exact createOfTree_failsOnly t
  split
  · exact insertOfTree_failsOnly t
  split
  · exact selectOfTree_failsOnly t
  split
  · exact deleteOfTree_failsOnly t
  split
  · exact dropOfTree_failsOnly t
  · exact failsOnly_error.2 id

end Statement

/-! ### Running -/

namespace Schema

/-- A field list fails when it is empty or repeats a name. -/
theorem ofFields_failsOnly (fields : List Field) :
    FailsOnly Error.OfStatement (ofFields fields) := by
  unfold ofFields
  split
  · exact failsOnly_error.2 id
  split
  · exact failsOnly_error.2 id
  · exact failsOnly_ok _

theorem leading_failsOnly (s : Schema) (width : Nat) :
    FailsOnly Error.OfStatement (s.leading width) := by
  unfold leading
  split
  · exact failsOnly_ok _
  · exact ofFields_failsOnly _

/-- A reference fails only by what it names: nothing, or more than one field. -/
theorem position_failsOnly (s : Schema) (reference : String) :
    FailsOnly Error.IsName (s.position reference) := by
  unfold position
  split
  · exact failsOnly_ok _
  split
  · -- a reference with a point
    split
    · exact failsOnly_ok _
    · exact failsOnly_error.2 trivial
  · -- a bare reference, which can be ambiguous
    split
    · exact failsOnly_error.2 trivial
    · exact failsOnly_ok _
    · exact failsOnly_error.2 trivial

end Schema

/-- A literal fails only as one of the declared type. -/
theorem ColumnType.read_failsOnly (type : ColumnType) (column literal : String) :
    FailsOnly Error.OfStatement (type.read column literal) := by
  unfold ColumnType.read
  split
  all_goals
    split
    · exact failsOnly_ok _
    · exact failsOnly_error.2 id

namespace Row

theorem ofValues_failsOnly (schema : Schema) (values : List Value) :
    FailsOnly Error.OfStatement (ofValues schema values) := by
  unfold ofValues
  split
  · exact failsOnly_ok _
  · exact failsOnly_error.2 id

theorem get_failsOnly (r : Row) (reference : String) :
    FailsOnly Error.IsName (r.get reference) :=
  (r.schema.position_failsOnly reference).map r.value

/-- The place for a literal is not found when its attribute names no field, or when there are too
many literals. -/
theorem target_failsOnly (schema : Schema) (attributes : List String) (i : Nat) :
    FailsOnly Error.OfStatement (target schema attributes i) := by
  unfold target
  split
  · exact (schema.position_failsOnly _).ofStatement
  split
  · exact failsOnly_ok _
  · exact failsOnly_error.2 id

/-- Placing the literals fails over the place of one of them, over a place taken before, or over a
literal. -/
theorem assign_failsOnly (schema : Schema) (attributes literals : List String) :
    ∀ (i : Nat) (slots : Slots schema),
      FailsOnly Error.OfStatement (assign schema attributes i slots literals) := by
  induction literals with
  | nil => exact fun _ _ => failsOnly_ok _
  | cons literal rest ih =>
    -- each round finds the place, sees that it is free and reads the literal
    intro i slots
    refine (target_failsOnly schema attributes i).bind fun place => ?_
    dsimp only
    split
    · exact failsOnly_error.2 id
    · exact (ColumnType.read_failsOnly _ _ _).bind fun value => ih (i + 1) _

theorem collect_failsOnly {schema : Schema} (slots : Slots schema) :
    FailsOnly Error.OfStatement (collect slots) := by
  refine FailsOnly.mapM fun i _ => ?_
  split
  · exact failsOnly_ok _
  · exact failsOnly_error.2 id

/-- Building a row fails before the literals are placed, while they are, or because a field was
given none. -/
theorem build_failsOnly (schema : Schema) (attributes literals : List String) :
    FailsOnly Error.OfStatement (build schema attributes literals) := by
  unfold build
  dsimp only
  -- the number of literals is checked against the fields or the attributes first
  split
  · exact failsOnly_error.2 id
  split
  · exact failsOnly_error.2 id
  · exact (assign_failsOnly schema attributes literals 0 _).bind fun slots =>
      (collect_failsOnly slots).bind fun values => ofValues_failsOnly schema values

end Row

namespace Condition

/-- An operand fails only over its name. It is a text of its own when it names no field, so what is
left is ambiguity, but that is not needed here. -/
theorem denote_failsOnly (row : Row) (operand : String) :
    FailsOnly Error.IsName (denote row operand) := by
  have bound := row.get_failsOnly operand
  unfold denote
  split
  · exact failsOnly_ok _
  · -- an operand that names no field stands for itself
    exact failsOnly_ok _
  · next e _ fails => exact failsOnly_error.2 (bound e fails)

/-- A condition fails only over the names of its operands. -/
theorem holds_failsOnly (row : Row) (c : Condition) :
    FailsOnly Error.IsName (c.holds row) := by
  induction c with
  | equal l r =>
    exact (denote_failsOnly row l).bind fun _ => (denote_failsOnly row r).bind fun _ =>
      failsOnly_ok _
  | and a b iha ihb =>
    -- the right side is asked only if the left does not decide
    refine iha.bind fun left => ?_
    split
    · exact ihb
    · exact failsOnly_ok _
  | or a b iha ihb =>
    refine iha.bind fun left => ?_
    split
    · exact failsOnly_ok _
    · exact ihb

theorem admits_failsOnly (selection : Option Condition) (row : Row) :
    FailsOnly Error.IsName (admits selection row) := by
  cases selection with
  | none => exact failsOnly_ok _
  | some c => exact holds_failsOnly row c

end Condition

/-- A removal fails as its condition does on one of the rows. -/
theorem Relation.removeWhere_failsOnly (r : Relation) (selection : Option Condition) :
    FailsOnly Error.OfStatement (r.removeWhere (Condition.admits selection)).2 := by
  have bound : FailsOnly Error.OfStatement (r.rows.mapM (Condition.admits selection)) :=
    FailsOnly.mapM fun row _ => (Condition.admits_failsOnly selection row).ofStatement
  unfold Relation.removeWhere
  split
  · next e fails => exact failsOnly_error.2 (bound e fails)
  · exact failsOnly_ok _

theorem Catalog.find_failsOnly (c : Catalog) (name : String) :
    FailsOnly Error.OfStatement (c.find name) := by
  unfold Catalog.find
  split
  · exact failsOnly_ok _
  · exact failsOnly_error.2 id

/-! ### Running queries -/

section Bound

variable {P : Error → Prop}

/-- Filtering fails as the condition does. -/
theorem keepRows_failsOnly {condition : Row → Except Error Bool}
    (h : ∀ row, FailsOnly P (condition row)) (rows : List Row) :
    FailsOnly P (keepRows condition rows) := by
  induction rows with
  | nil => exact failsOnly_ok _
  | cons row rest ih =>
    refine (h row).bind fun kept => ?_
    split
    · exact ih.bind fun _ => failsOnly_ok _
    · exact ih

/-- Dropping repeats fails as the keys do. -/
theorem firstRows_failsOnly {key : Row → Except Error (List Value)}
    (h : ∀ row, FailsOnly P (key row)) (rows : List Row) :
    ∀ seen, FailsOnly P (firstRows key seen rows) := by
  induction rows with
  | nil => exact fun _ => failsOnly_ok _
  | cons row rest ih =>
    intro seen
    refine (h row).bind fun k => ?_
    split
    · exact ih seen
    · exact (ih (k :: seen)).bind fun _ => failsOnly_ok _

end Bound

/-- The loops over the tables fail only over a schema or the arity of a joined row. They never do,
but the bound does not have to know that. -/
theorem nestedLoops_failsOnly (schema : Schema) (tables : List Relation) :
    ∀ (width : Nat) (rows : List Row),
      FailsOnly Error.OfStatement (nestedLoops schema width rows tables) := by
  induction tables with
  | nil => exact fun _ _ => failsOnly_ok _
  | cons r rest ih =>
    -- each round widens the schema and joins every row with every row of the next table
    intro width rows
    refine (schema.leading_failsOnly _).bind fun reached => ?_
    refine FailsOnly.bind ?_ fun next => ih _ next.flatten
    exact FailsOnly.mapM fun left _ => FailsOnly.mapM fun right _ => Row.ofValues_failsOnly _ _

namespace Query

theorem relations_failsOnly (q : Query) (c : Catalog) :
    FailsOnly Error.OfStatement (q.relations c) :=
  FailsOnly.mapM fun name _ => c.find_failsOnly name

/-- The rows that a query starts from can be missing because no schema covers all sources. -/
theorem sourceRows_failsOnly (tables : List Relation) :
    FailsOnly Error.OfStatement (sourceRows tables) := by
  unfold sourceRows
  split
  · exact failsOnly_ok _
  · exact failsOnly_ok _
  · -- several tables: their schema, the rows of the first under it, and the loops over the others
    refine (Schema.ofFields_failsOnly _).bind fun schema => ?_
    refine (schema.leading_failsOnly _).bind fun head => ?_
    refine FailsOnly.bind ?_ fun first => nestedLoops_failsOnly schema _ _ first
    exact FailsOnly.mapM fun row _ => Row.ofValues_failsOnly head row.values

/-- The key by which repeats are found fails only over a reference. -/
theorem key_failsOnly (q : Query) (row : Row) : FailsOnly Error.IsName (q.key row) := by
  unfold key
  split
  · exact failsOnly_ok _
  · exact FailsOnly.mapM fun reference _ => row.get_failsOnly reference

/-- From the rows that a query starts from on, only a reference can fail. -/
theorem rows_failsOnly_of_source {q : Query} {tables : List Relation} {source : List Row}
    (start : sourceRows tables = .ok source) : FailsOnly Error.IsName (q.rows tables) := by
  rw [rows, start, ok_bind]
  -- the condition comes first, and the comparison of keys after it if rows are to be distinct
  refine (keepRows_failsOnly (Condition.admits_failsOnly q.selection) source).bind fun kept => ?_
  split
  · exact firstRows_failsOnly q.key_failsOnly kept []
  · exact failsOnly_ok _

/-- A query fails before its rows are there, or over names. -/
theorem rows_failsOnly (q : Query) (tables : List Relation) :
    FailsOnly Error.OfStatement (q.rows tables) := by
  cases start : sourceRows tables with
  | error e =>
    rw [rows, start, error_bind]
    exact failsOnly_error.2 (sourceRows_failsOnly tables e start)
  | ok source => exact (rows_failsOnly_of_source start).ofStatement

/-- A query fails over a table that is not there, or over its rows. -/
theorem execute_failsOnly (q : Query) (c : Catalog) (m : Memory) :
    FailsOnly Error.OfStatement (q.execute c m).rows := by
  unfold execute
  split
  · next e fails => exact failsOnly_error.2 (q.relations_failsOnly c e fails)
  · dsimp only
    split
    · next e fails => exact failsOnly_error.2 (q.rows_failsOnly _ e fails)
    · exact failsOnly_ok _

end Query

namespace Renderer

/-- A cell fails over its reference, or because its value is not of the declared type. -/
theorem fieldText_failsOnly (row : Row) (reference : String) :
    FailsOnly Error.OfStatement (fieldText row reference) := by
  refine FailsOnly.bind ((row.schema.position_failsOnly reference).ofStatement.map _) fun type => ?_
  refine (row.get_failsOnly reference).ofStatement.bind fun value => ?_
  unfold shownValue
  split
  · exact failsOnly_ok _
  · exact failsOnly_ok _
  · exact failsOnly_error.2 id

variable {P : Error → Prop}

/-- Laying rows out fails, if at all, as a field of one of them does. -/
theorem table_failsOnly {rows : List Row}
    (h : ∀ row ∈ rows, ∀ reference, FailsOnly P (fieldText row reference)) (r : Renderer)
    (p : Projection) : FailsOnly P (r.table rows p) := by
  -- a line is made of the texts of its fields and can fail by nothing else
  have line : ∀ row ∈ rows, FailsOnly P (r.line row p.keys) := fun row member =>
    FailsOnly.bind (FailsOnly.mapM fun reference _ => h row member reference) fun _ =>
      failsOnly_ok _
  unfold table
  split
  · exact failsOnly_ok _
  · exact FailsOnly.bind (FailsOnly.mapM line) fun _ => failsOnly_ok _

end Renderer

namespace Catalog

/-- A table is not registered when its name is taken or its fields make no schema. -/
theorem register_failsOnly (c : Catalog) (name : String) (fields : List Field) :
    FailsOnly Error.OfStatement (c.register name fields) := by
  -- a name that is taken is refused before the fields are looked at
  unfold register
  split
  · exact failsOnly_error.2 id
  -- the name is free, so the fields decide
  split
  · next e fails => exact failsOnly_error.2 (Schema.ofFields_failsOnly fields e fails)
  · exact failsOnly_ok _

/-- **Running a statement** fails with no error of input or output. -/
theorem run_failsOnly (c : Catalog) (m : Memory) (r : Renderer) (s : Statement) :
    FailsOnly Error.OfStatement (c.run m r s).result := by
  -- one case for each statement: all of them look something up and then succeed or fail with that
  cases s with
  | create table fields =>
    change FailsOnly Error.OfStatement (c.runCreate table fields).result
    unfold runCreate
    split
    · next e fails => exact failsOnly_error.2 (c.register_failsOnly table fields e fails)
    · exact failsOnly_ok _
  | insert table attributes literals =>
    change FailsOnly Error.OfStatement (c.runInsert table attributes literals).result
    unfold runInsert
    split
    · next e fails => exact failsOnly_error.2 (c.find_failsOnly table e fails)
    split
    · next e fails => exact failsOnly_error.2 (Row.build_failsOnly _ _ _ e fails)
    · exact failsOnly_ok _
  | select q =>
    exact (q.execute_failsOnly c m).bind fun rows =>
      Renderer.table_failsOnly (fun row _ => Renderer.fieldText_failsOnly row) r q.projection
  | delete table selection =>
    change FailsOnly Error.OfStatement (c.runDelete table selection).result
    unfold runDelete
    split
    · next e fails => exact failsOnly_error.2 (c.find_failsOnly table e fails)
    dsimp only
    split
    · next e fails => exact failsOnly_error.2 (Relation.removeWhere_failsOnly _ selection e fails)
    · exact failsOnly_ok _
  | drop table =>
    have bound : FailsOnly Error.OfStatement (c.drop table) :=
      (c.find_failsOnly table).bind fun _ => failsOnly_ok _
    change FailsOnly Error.OfStatement (c.runDrop table).result
    unfold runDrop
    split
    · next e fails => exact failsOnly_error.2 (bound e fails)
    · exact failsOnly_ok _

end Catalog

end RelEngine
