import RelEngine.Condition
import RelEngine.Projection

/-!
# Statements

A statement tree is lowered to one of five kinds of statement (`Statement.ofTree`). Clauses are
found by their keyword among the branches, the first of a kind counts, and branches of other kinds
are passed over.

In a query over one table and in a deletion, operands that name the table are freed of that prefix
while lowering.
-/

namespace RelEngine

/-- **A query**: columns, whether repeated rows are dropped, sources and a condition. -/
structure Query where
  projection : Projection
  distinct : Bool
  tables : List String
  selection : Option Condition
deriving DecidableEq, Repr

/-- **A statement.** -/
inductive Statement where
  | create (table : String) (fields : List Field)
  /-- An empty attribute list stands for the schema's own order. -/
  | insert (table : String) (attributes literals : List String)
  | select (query : Query)
  | delete (table : String) (selection : Option Condition)
  | drop (table : String)
deriving DecidableEq, Repr

namespace Tree

/-- The condition of a statement, if it has one. -/
def selection (tree : Tree) : Except Error (Option Condition) :=
  match tree.branch .selection with
  | none => .ok none
  | some clause =>
    match clause.firstChild? with
    | none => .error (.malformed .emptySelection)
    | some condition => (Condition.ofTree condition).map some

/-- The field that `(ATTRIBUTE name type)` declares. -/
def declaredField (tree : Tree) : Except Error Field :=
  match tree.branches with
  | [name, type] =>
    if tree.is .attribute then do
      let name ← name.leafText
      let type ← type.leafText
      match ColumnType.ofName? type with
      | some t => .ok ⟨name, t⟩
      | none => .error (.mismatch (.unknownType type name))
    else .error (.malformed (.badAttribute tree))
  | _ => .error (.malformed (.badAttribute tree))

/-- The table that a statement is about. -/
def tableName (tree : Tree) (statement : Keyword) : Except Error String := do
  (← tree.required statement .table).wrappedText

/-- A table clause in front of the other branches names the table. -/
theorem tableName_node (kind table : String) (rest : List Tree) (statement : Keyword) :
    (node kind (.node Keyword.table.text [.leaf table] :: rest)).tableName statement
      = .ok table := by
  rw [tableName, required, branch_cons, is_keyword]
  rfl

end Tree

namespace Statement

/-- The keyword of a statement. -/
def keyword : Statement → Keyword
  | create .. => .create
  | insert .. => .insert
  | select .. => .select
  | delete .. => .delete
  | drop .. => .drop

/-- A table to be made: its name and its declared fields. -/
def createOfTree (tree : Tree) : Except Error Statement := do
  let table ← tree.tableName .create
  let fields ← (← tree.required .create .attributes).branches.mapM Tree.declaredField
  .ok (.create table fields)

/-- A row to be added: attributes, if given, and literals. -/
def insertOfTree (tree : Tree) : Except Error Statement := do
  let table ← tree.tableName .insert
  let attributes ← match tree.branch .attributes with
    | some t => t.branches.mapM Tree.leafText
    | none => .ok []
  let literals ← (← tree.required .insert .values).branches.mapM Tree.leafText
  .ok (.insert table attributes literals)

/-- A query: columns first, then sources, then the condition. -/
def selectOfTree (tree : Tree) : Except Error Statement := do
  let projection ← Projection.ofTree tree
  let columns ← tree.required .select .columns
  let tables ← (← tree.required .select .sources).branches.mapM Tree.wrappedText
  let distinct := Projection.isDistinct columns
  match tables with
  | [] => .error (.malformed .noTables)
  | [only] =>
    let selection ← tree.selection
    .ok (.select ⟨projection, distinct, tables, selection.map (·.unqualified only)⟩)
  | _ =>
    let selection ← tree.selection
    .ok (.select ⟨projection, distinct, tables, selection⟩)

/-- A deletion: the table and the condition on the rows to go. -/
def deleteOfTree (tree : Tree) : Except Error Statement := do
  let table ← tree.tableName .delete
  let selection ← tree.selection
  .ok (.delete table (selection.map (·.unqualified table)))

/-- A table to be dropped. -/
def dropOfTree (tree : Tree) : Except Error Statement := do
  let table ← tree.tableName .drop
  .ok (.drop table)

/-- **The statement that a tree spells.** -/
def ofTree (tree : Tree) : Except Error Statement :=
  if tree.is .create then createOfTree tree
  else if tree.is .insert then insertOfTree tree
  else if tree.is .select then selectOfTree tree
  else if tree.is .delete then deleteOfTree tree
  else if tree.is .drop then dropOfTree tree
  else .error (.unknownStatement tree.kind)

end Statement

end RelEngine
