import RelEngine.Proofs.Atomicity
import RelEngine.Proofs.ConditionMeaning
import RelEngine.Proofs.WholeRows

/-!
# Queries and deletions pick the same rows

A query for all columns of a table and a deletion from the table can be given the same clauses, a
condition among them. They are lowered in different ways, and they go over the rows in different
loops. The query takes the rows one by one and stops where the condition fails, while the deletion
marks all rows first and then lets the marked ones go.

Both come to the same. Lowering refuses both for the same reason, or gives both the same condition
(`Statement.ofTree_queryOf`, `Statement.ofTree_deletionOf`). If there is a row on which that
condition fails, then its error at the first such row is the error of both. Otherwise the condition
divides the rows in two, and this division is all that either statement depends on: the query gives
the one part (`Engine.gives_of_decided`) and the deletion leaves the other
(`Engine.removes_of_decided`).

* `Engine.query_and_deletion_agree` — the whole comparison, with what the two do after the deletion.
-/

namespace RelEngine

/-! ### Two statements with the same clauses -/

namespace Tree

variable (table : String) (clauses : List Tree)

/-- The query for all columns of a table, with further clauses. -/
def queryOf : Tree :=
  .node Keyword.select.text
    (.node Keyword.columns.text [.node "COLUMN" [.leaf Projection.wildcard]] ::
      .node Keyword.sources.text [.node Keyword.table.text [.leaf table]] :: clauses)

/-- The deletion from a table, with further clauses. -/
def deletionOf : Tree :=
  .node Keyword.delete.text (.node Keyword.table.text [.leaf table] :: clauses)

/-- The condition of both is the one that the further clauses give. -/
theorem selection_queryOf :
    (queryOf table clauses).selection = (deletionOf table clauses).selection := by
  have branch : (queryOf table clauses).branch .selection
      = (deletionOf table clauses).branch .selection := by
    simp only [queryOf, deletionOf, branch_cons, is_keyword, reduceCtorEq, decide_false,
      Bool.false_eq_true, if_false]
    rfl
  rw [selection, selection, branch]

end Tree

namespace Statement

variable (table : String) (clauses : List Tree)

open RelEngine.Tree

/-- The query is lowered iff its condition is. -/
theorem ofTree_queryOf :
    ofTree (queryOf table clauses) = (deletionOf table clauses).selection.map fun condition =>
      .select (Query.ofReferences [Projection.wildcard] [table] condition) := by
  -- the clauses in front are found first, whatever follows
  have columns : (queryOf table clauses).required .select .columns
      = .ok (.node Keyword.columns.text [.node "COLUMN" [.leaf Projection.wildcard]]) := by
    simp [required, queryOf, branch_cons, is_keyword]
  have sources : (queryOf table clauses).required .select .sources
      = .ok (.node Keyword.sources.text [.node Keyword.table.text [.leaf table]]) := by
    simp [required, queryOf, branch_cons, is_keyword]
  have projection : Projection.ofTree (queryOf table clauses)
      = .ok ⟨[Projection.wildcard], [Projection.wildcard]⟩ := by
    rw [Projection.ofTree, columns, sources, ok_bind, ok_bind, branches_node, List.length_singleton]
    decide
  have select : ofTree (queryOf table clauses) = selectOfTree (queryOf table clauses) := by
    simp [ofTree, queryOf, is_keyword]
  rw [select, selectOfTree, projection, columns, sources, ← selection_queryOf]
  cases (queryOf table clauses).selection <;> rfl

/-- The deletion is lowered iff its condition is. -/
theorem ofTree_deletionOf :
    ofTree (deletionOf table clauses) = (deletionOf table clauses).selection.map fun condition =>
      .delete table (Condition.over [table] condition) := by
  have named : (deletionOf table clauses).tableName .delete = .ok table := tableName_node ..
  have delete : ofTree (deletionOf table clauses) = deleteOfTree (deletionOf table clauses) := by
    simp [ofTree, deletionOf, is_keyword]
  rw [delete, deleteOfTree, named, ok_bind]
  cases (deletionOf table clauses).selection <;> rfl

end Statement

/-! ### A condition that fails -/

section Failed

variable {r : Relation} {selection : Option Condition} {err : Error}

/-- A query over one table fails as its scan does. -/
theorem Query.execute_rows_of_failed {q : Query} {c : Catalog} {name : String} (m : Memory)
    (single : q.tables = [name]) (there : c.find? name = some r)
    (failed : r.rows.mapM (Condition.admits q.selection) = .error err) :
    (q.execute c m).rows = .error err := by
  have tables : q.relations c = .ok [r] := by
    rw [relations_eq_ok_iff, single]
    exact .cons there .nil
  -- the first row that fails is the same for both loops
  obtain ⟨before, row, after, rows, decided, fails⟩ := mapM_eq_error_iff.1 failed
  rw [execute_rows_eq m tables, Query.rows, sourceRows, ok_bind, rows,
    keepRows_of_first_error decided fails, error_bind]

/-- And so does a deletion. -/
theorem Catalog.runDelete_of_failed {c : Catalog} {table : String} (there : c.find? table = some r)
    (failed : r.rows.mapM (Condition.admits selection) = .error err) :
    (c.runDelete table selection).result = .error err := by
  have scanned : r.removeWhere (Condition.admits selection) = (r, .error err) := by
    rw [Relation.removeWhere, failed]
  rw [runDelete, find_eq_ok_iff.2 there]
  dsimp only
  rw [scanned]
  rfl

end Failed

namespace Engine

/-- **A query gives rows**: it is lowered, these are its rows, and they are printed. -/
def Gives (e : Engine) (tree : Tree) (rows : List Row) : Prop :=
  ∃ q lines, Statement.ofTree tree = .ok (.select q) ∧
    (q.execute e.catalog e.memory).rows = .ok rows ∧
    e.renderer.table rows q.projection = .ok lines ∧ (e.perform tree).result = .ok lines

/-- Rows that a query has and that can be printed are given. -/
theorem gives_of_table {e : Engine} {tree : Tree} {q : Query} {rows : List Row}
    {lines : List String} (lowered : Statement.ofTree tree = .ok (.select q))
    (given : (q.execute e.catalog e.memory).rows = .ok rows)
    (table : e.renderer.table rows q.projection = .ok lines) : e.Gives tree rows := by
  refine ⟨q, lines, lowered, given, table, ?_⟩
  rw [perform_result_of_ok lowered]
  show (q.execute e.catalog e.memory).rows.bind (fun rows => e.renderer.table rows q.projection)
    = .ok lines
  rw [given]
  exact table

/-- **A deletion removes rows**: it succeeds, and the last that it reports is their number. -/
def Removes (e : Engine) (tree : Tree) (n : Nat) : Prop :=
  (e.perform tree).result = .ok [] ∧ (e.perform tree).events.getLast? = some (.deleted n)

/-- Where the condition fails, both statements meet the same first row on which it does. -/
theorem both_fail {e : Engine} {name : String} {r : Relation} {clauses : List Tree}
    {condition : Option Condition} {err : Error} (there : e.catalog.find? name = some r)
    (written : (Tree.deletionOf name clauses).selection = .ok condition)
    (failed : r.rows.mapM (Condition.admits (Condition.over [name] condition)) = .error err) :
    (e.perform (Tree.queryOf name clauses)).result = .error err ∧
      (e.perform (Tree.deletionOf name clauses)).result = .error err := by
  have lowered := Statement.ofTree_queryOf name clauses
  have lowered' := Statement.ofTree_deletionOf name clauses
  rw [written] at lowered lowered'
  -- the loops of the two differ, but they meet the same first row that fails
  constructor
  · rw [perform_result_of_ok lowered]
    change ((Query.ofReferences [Projection.wildcard] [name] condition).execute e.catalog
      e.memory).rows.bind _ = .error err
    rw [Query.execute_rows_of_failed e.memory rfl there failed]
    rfl
  · rw [perform_result_of_ok lowered']
    exact Catalog.runDelete_of_failed there failed

section Decided

variable {e : Engine} {name : String} {r : Relation} {clauses : List Tree}
  {condition : Option Condition} {p : Row → Bool}

/-- A condition that is decided on every row makes the query give those on which it is true. They
are printed whole, so nothing can fail after that. -/
theorem gives_of_decided (there : e.catalog.find? name = some r) (sound : r.Sound)
    (written : (Tree.deletionOf name clauses).selection = .ok condition)
    (decided : ∀ row ∈ r.rows,
      Condition.admits (Condition.over [name] condition) row = .ok (p row)) :
    e.Gives (Tree.queryOf name clauses) (r.rows.filter p) := by
  have lowered := Statement.ofTree_queryOf name clauses
  rw [written] at lowered
  set q := Query.ofReferences [Projection.wildcard] [name] condition
  have rows : (q.execute e.catalog e.memory).rows = .ok (r.rows.filter p) :=
    q.execute_rows_of_single e.memory rfl there decided
  have matching : ∀ row ∈ r.rows.filter p, row.Matches := fun row member =>
    (sound.row_typed row (List.mem_of_mem_filter member)).matches
  have wild : Projection.isWildcard q.projection.keys = true := rfl
  obtain ⟨lines, table⟩ := Renderer.exists_table_wildcard matching e.renderer wild
  exact gives_of_table lowered rows table

theorem removes_of_decided (there : e.catalog.find? name = some r)
    (written : (Tree.deletionOf name clauses).selection = .ok condition)
    (decided : ∀ row ∈ r.rows,
      Condition.admits (Condition.over [name] condition) row = .ok (p row)) :
    e.Removes (Tree.deletionOf name clauses) (r.rows.filter p).length ∧
      (e.perform (Tree.deletionOf name clauses)).engine.catalog
        = e.catalog.replace name { r with rows := r.rows.filter fun row => !p row } := by
  have lowered := Statement.ofTree_deletionOf name clauses
  rw [written] at lowered
  have effect := Catalog.runDelete_eq_of_decided there decided
  rw [Removes, perform_result_of_ok lowered, perform_events_of_ok lowered,
    perform_catalog_of_ok lowered]
  change ((e.catalog.runDelete _ _).result = _ ∧
    (_ :: _ :: (e.catalog.runDelete _ _).events).getLast? = _) ∧
      (e.catalog.runDelete _ _).catalog = _
  rw [effect]
  exact ⟨⟨rfl, rfl⟩, rfl⟩

/-- After the deletion no row is left that either statement picks. -/
theorem picks_none_after (there : e.catalog.find? name = some r) (sound : r.Sound)
    (written : (Tree.deletionOf name clauses).selection = .ok condition)
    (decided : ∀ row ∈ r.rows,
      Condition.admits (Condition.over [name] condition) row = .ok (p row)) :
    let after := (e.perform (Tree.deletionOf name clauses)).engine
    after.Gives (Tree.queryOf name clauses) [] ∧ after.Removes (Tree.deletionOf name clauses) 0 ∧
      (after.perform (Tree.deletionOf name clauses)).engine.catalog = after.catalog := by
  intro after
  -- what is left is a table on which the condition is decided too, and true of no row
  have there' : after.catalog.find? name
      = some { r with rows := r.rows.filter fun row => !p row } := by
    rw [(removes_of_decided there written decided).2, Catalog.find?_replace there, if_pos rfl]
  have decided' : ∀ row ∈ r.rows.filter fun row => !p row,
      Condition.admits (Condition.over [name] condition) row = .ok (p row) :=
    fun row member => decided row (List.mem_of_mem_filter member)
  have none : (r.rows.filter fun row => !p row).filter p = [] := by
    rw [List.filter_filter, List.filter_eq_nil_iff]
    simp
  obtain ⟨removes, left⟩ := removes_of_decided there' written decided'
  have gives := gives_of_decided there' (sound.filter _) written decided'
  dsimp only at removes left gives
  rw [none] at removes gives
  refine ⟨gives, removes, ?_⟩
  rw [List.filter_filter] at left
  simp only [Bool.and_self] at left
  exact left.trans (Catalog.replace_self there')

end Decided

/-- **Queries and deletions agree.** A query for all columns of a table and a deletion from it have
the same clauses. Either both fail, with the same error, and change nothing, or the condition is
decided on every row. Then the query gives the rows of which it is true and the deletion leaves the
others, both in the order of the table, and reports how many rows the query gives. After the
deletion the same query gives no row, and the same deletion removes none. -/
theorem query_and_deletion_agree {e : Engine} (reachable : e.Reachable) {name : String}
    {r : Relation} (there : e.catalog.find? name = some r) (clauses : List Tree) :
    let query := Tree.queryOf name clauses
    let deletion := Tree.deletionOf name clauses
    let after := (e.perform deletion).engine
    (e.perform query).engine.catalog = e.catalog ∧
    ((∃ err, (e.perform query).result = .error err ∧ (e.perform deletion).result = .error err ∧
        after.catalog = e.catalog) ∨
      (∃ condition, ∃ p : Row → Bool, deletion.selection = .ok condition ∧
        (∀ row ∈ r.rows,
          Condition.admits (Condition.over [name] condition) row = .ok (p row)) ∧
        e.Gives query (r.rows.filter p) ∧
        e.Removes deletion (r.rows.filter p).length ∧
        e.catalog.ChangesAt name (some { r with rows := r.rows.filter fun row => !p row })
          after.catalog ∧
        after.Gives query [] ∧ after.Removes deletion 0 ∧
        (after.perform deletion).engine.catalog = after.catalog)) := by
  intro query deletion after
  have sound := (Catalog.sound_iff.1 reachable.catalog_sound name r there).2
  have lowered : Statement.ofTree query = _ := Statement.ofTree_queryOf name clauses
  have lowered' : Statement.ofTree deletion = _ := Statement.ofTree_deletionOf name clauses
  cases written : deletion.selection with
  | error err =>
    -- neither is a statement
    rw [written] at lowered lowered'
    exact ⟨perform_catalog_of_error lowered, .inl ⟨err, perform_result_of_error lowered,
      perform_result_of_error lowered', perform_catalog_of_error lowered'⟩⟩
  | ok condition =>
    rw [written] at lowered
    refine ⟨perform_catalog_of_ok lowered, ?_⟩
    cases scan : r.rows.mapM (Condition.admits (Condition.over [name] condition)) with
    | error err =>
      obtain ⟨query_fails, deletion_fails⟩ := both_fail there written scan
      exact .inl ⟨err, query_fails, deletion_fails, perform_catalog_of_failed deletion_fails⟩
    | ok marks =>
      let p : Row → Bool := fun row =>
        affirmed (Condition.admits (Condition.over [name] condition) row)
      have decided : ∀ row ∈ r.rows,
          Condition.admits (Condition.over [name] condition) row = .ok (p row) :=
        fun row member => eq_ok_affirmed_of_mapM scan member
      obtain ⟨removes, left⟩ := removes_of_decided there written decided
      have change := Catalog.find?_replace there { r with rows := r.rows.filter fun row => !p row }
      rw [← left] at change
      exact .inr ⟨condition, p, rfl, decided, gives_of_decided there sound written decided, removes,
        change, picks_none_after there sound written decided⟩

/-- Of three rows the condition is true of the first and of the last. -/
theorem query_and_deletion_agree_first_last :
    let e := (ofSettings .standard).calls
      ([.node "CREATE" [.node "TABLE" [.leaf "t"],
          .node "ATTRIBUTES" [.node "ATTRIBUTE" [.leaf "a", .leaf "INT"],
            .node "ATTRIBUTE" [.leaf "b", .leaf "STR20"]]],
        .node "INSERT" [.node "TABLE" [.leaf "t"], .node "VALUES" [.leaf "1", .leaf "x"]],
        .node "INSERT" [.node "TABLE" [.leaf "t"], .node "VALUES" [.leaf "2", .leaf "y"]],
        .node "INSERT" [.node "TABLE" [.leaf "t"], .node "VALUES" [.leaf "3", .leaf "3"]]].map
        fun tree => .execute 0 tree Transcript.unlimited)
    let selection : Tree := .node "WHERE" [.node "OR" [
      .node "=" [.leaf "t.b", .leaf "x"], .node "=" [.leaf "a", .leaf "b"]]]
    let query : Tree := .node "SELECT" [.node "COLUMNS" [.node "COLUMN" [.leaf "*"]],
      .node "FROM" [.node "TABLE" [.leaf "t"]], selection]
    let deletion : Tree := .node "DELETE" [.node "TABLE" [.leaf "t"], selection]
    let s : Schema := ⟨[⟨"a", .int⟩, ⟨"b", .text⟩], by decide, by decide⟩
    let first : Row := ⟨s, [.int 1, .text "x"], rfl⟩
    let middle : Row := ⟨s, [.int 2, .text "y"], rfl⟩
    let last : Row := ⟨s, [.int 3, .text "3"], rfl⟩
    e.Gives query [first, last] ∧ e.Removes deletion 2 ∧
      (e.perform deletion).engine.catalog.find? "t" = some ⟨"t", s, [middle]⟩ ∧
      (e.perform deletion).engine.Gives query [] := by
  intro e selection query deletion s first middle last
  have reachable : e.Reachable := reachable_calls _ _
  have there : e.catalog.find? "t" = some ⟨"t", s, [first, middle, last]⟩ := by decide +kernel
  obtain ⟨-, ⟨err, failed, -⟩ | ⟨condition, p, written, decided, gives, removes, change, gives', -⟩⟩ :=
    query_and_deletion_agree reachable there [selection]
  · -- the query has a result, so nothing failed
    have done : (e.perform query).result.toOption.isSome = true := by decide +kernel
    have failed : (e.perform query).result = .error err := failed
    rw [failed] at done
    cases done
  · obtain rfl : some (.or (.equal "t.b" "x") (.equal "a" "b")) = condition := by
      have known : deletion.selection = .ok (some (.or (.equal "t.b" "x") (.equal "a" "b"))) := by
        decide +kernel
      exact Except.ok.inj (known.symm.trans written)
    -- the verdicts on the three rows
    have verdict : ∀ {row b}, row ∈ [first, middle, last] →
        Condition.admits (Condition.over ["t"] (some (.or (.equal "t.b" "x") (.equal "a" "b")))) row
          = .ok b → p row = b :=
      fun member known => Except.ok.inj ((decided _ member).symm.trans known)
    have here : p first = true := verdict (by simp) (by decide +kernel)
    have passed : p middle = false := verdict (by simp) (by decide +kernel)
    have there : p last = true := verdict (by simp) (by decide +kernel)
    have picked : [first, middle, last].filter p = [first, last] := by simp [here, passed, there]
    have left : [first, middle, last].filter (fun row => !p row) = [middle] := by
      simp [here, passed, there]
    have found := change "t"
    dsimp only at gives removes found
    rw [picked] at gives removes
    rw [left, if_pos rfl] at found
    exact ⟨gives, removes, found, gives'⟩

end Engine

end RelEngine
