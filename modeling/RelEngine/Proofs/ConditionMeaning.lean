import RelEngine.Proofs.Lowering
import RelEngine.Proofs.References

/-!
# What a condition means

A condition on a single table is written before the table is known. Its meaning is given here on the
written form (`Condition.truth`): an operand `c` or `table.c` means the value that the row has in its
column `c`, printed, and every other operand means itself (`Relation.meaning`).

The engine comes to this in two stages that know nothing of each other. Lowering takes the prefix off
every operand that begins with the table's name, and evaluation then finds out for each row whether
what is left names a field. They agree with the meaning on every operand but one kind. A **stray**
operand begins like a reference to the table and goes on with something that is no field of it, such
as the text `t.txt` in a condition on a table `t`. It means itself, but it is compared without its
prefix (`Relation.reading`).

* `Condition.holds_unqualified` — what a lowered condition is, on every row and for all operands;
* `Engine.selection_means_as_written` — without stray operands a query keeps, and a deletion removes,
  the rows on which the written condition is true;
* `Engine.stray_operand_loses_rows` — with one they do not.
-/

namespace RelEngine

/-! ### The written condition -/

namespace Condition

/-- The operands of a condition. -/
def operands : Condition → List String
  | equal l r => [l, r]
  | and a b => a.operands ++ b.operands
  | or a b => a.operands ++ b.operands

/-- **The truth of a written condition**, given what each operand means. -/
def truth (means : String → String) : Condition → Bool
  | equal l r => means l == means r
  | and a b => a.truth means && b.truth means
  | or a b => a.truth means || b.truth means

/-- Only what the operands of the condition mean counts for its truth. -/
theorem truth_congr {means means' : String → String} {c : Condition}
    (h : ∀ operand ∈ c.operands, means operand = means' operand) :
    c.truth means = c.truth means' := by
  induction c with
  | equal l r => rw [truth, truth, h l (by simp [operands]), h r (by simp [operands])]
  | and a b iha ihb =>
    rw [truth, truth, iha fun o ho => h o (List.mem_append_left _ ho),
      ihb fun o ho => h o (List.mem_append_right _ ho)]
  | or a b iha ihb =>
    rw [truth, truth, iha fun o ho => h o (List.mem_append_left _ ho),
      ihb fun o ho => h o (List.mem_append_right _ ho)]

end Condition

namespace Relation

variable (r : Relation) (row : Row) (operand : String)

/-- The value of a row that an operand refers to, by a column's name alone or behind the table's. -/
def column? : Option Value :=
  ((r.schema.names.zip row.values).find? fun p =>
    operand == p.1 || operand == r.name ++ "." ++ p.1).map Prod.snd

/-- **What an operand means** on a row: the value it refers to, printed, or itself. -/
def meaning : String := (r.column? row operand).elim operand Value.print

/-- **What an operand is compared as** on a row: the value it refers to, printed, or itself without
the table's prefix. -/
def reading : String :=
  (r.column? row operand).elim (Condition.unqualifiedOperand r.name operand) Value.print

/-- **Stray operands**: those that begin with the table's name and a point, and go on with something
that is no field of the table. -/
def Stray : Prop := ∃ rest, operand = r.name ++ "." ++ rest ∧ rest ∉ r.schema.names

end Relation

/-! ### Taking the prefix off -/

namespace Condition

/-- Lowering takes the name of the table and the point off. -/
theorem unqualifiedOperand_point (table column : String) :
    unqualifiedOperand table (table ++ "." ++ column) = column := by
  -- the prefix is compared as characters, and the point is the last of them
  have parts : (table ++ "." ++ column).toList
      = (table.toList ++ [referencePoint]) ++ column.toList := by
    rw [String.toList_append, String.toList_append]
    rfl
  rw [unqualifiedOperand, behind, parts, if_pos (List.prefix_append _ _), List.drop_left]
  exact String.ofList_toList

/-- It leaves every operand alone that does not begin with them. -/
theorem unqualifiedOperand_of_not_point {table operand : String}
    (h : ∀ rest, operand ≠ table ++ "." ++ rest) : unqualifiedOperand table operand = operand := by
  have apart : ¬ table.toList ++ [referencePoint] <+: operand.toList := by
    rintro ⟨rest, parts⟩
    refine h (String.ofList rest) (String.toList_inj.1 ?_)
    simp only [String.toList_append, String.toList_ofList]
    exact parts.symm
  rw [unqualifiedOperand, behind, if_neg apart]

end Condition

/-! ### Operands on a row -/

namespace Condition

variable {row : Row} {operand : String}

/-- An operand that resolves denotes the value at its place, printed. -/
theorem denote_of_place {i : Fin row.schema.size} {v : Value}
    (position : row.schema.position operand = .ok i) (value : row.values[i.1]? = some v) :
    denote row operand = .ok v.print := by
  rw [denote, Row.get_of_place position value]

/-- An operand that is no plain name of the row denotes itself. -/
theorem denote_of_unstored (plain : ∀ f ∈ row.schema.fields, qualifier ∉ f.name.toList)
    (unstored : operand ∉ row.schema.names) : denote row operand = .ok operand := by
  rw [denote, Row.get, Schema.position_eq_error_of_plain plain unstored]
  rfl

end Condition

/-! ### Operands on a row of the table -/

namespace Relation

variable {r : Relation} {row : Row} {operand : String}

/-- The value that an operand refers to stands in the field whose reference the operand is. -/
theorem exists_of_column? {v : Value} (h : r.column? row operand = some v) :
    ∃ (k : Nat) (f : Field), r.schema.fields[k]? = some f ∧ row.values[k]? = some v ∧
      (operand = f.name ∨ operand = r.name ++ "." ++ f.name) := by
  obtain ⟨⟨name, v'⟩, found, same⟩ := Option.map_eq_some_iff.1 h
  obtain rfl : v' = v := same
  have refers := List.find?_some found
  obtain ⟨k, place⟩ := List.mem_iff_getElem?.1 (List.mem_of_find?_eq_some found)
  obtain ⟨named, value⟩ := List.getElem?_zip_eq_some.1 place
  rw [Schema.names, List.getElem?_map, Option.map_eq_some_iff] at named
  obtain ⟨f, there, rfl⟩ := named
  exact ⟨k, f, there, value, by simpa using refers⟩

/-- An operand that refers to nothing is no reference to a field, in neither of the two forms. -/
theorem not_refers_of_column? (arity : row.values.length = r.schema.size)
    (h : r.column? row operand = none) {f : Field} (hf : f ∈ r.schema.fields) :
    operand ≠ f.name ∧ operand ≠ r.name ++ "." ++ f.name := by
  obtain ⟨k, there⟩ := List.mem_iff_getElem?.1 hf
  have within : k < row.values.length := by
    rw [arity]
    exact (List.getElem?_eq_some_iff.1 there).1
  -- every field has its value beside it, and the search has passed over this one
  have pair : (f.name, row.values[k]) ∈ r.schema.names.zip row.values := by
    refine List.mem_iff_getElem?.2 ⟨k, List.getElem?_zip_eq_some.2 ⟨?_, ?_⟩⟩
    · rw [Schema.names, List.getElem?_map, there]
      rfl
    · exact List.getElem?_eq_getElem within
  have passed := List.find?_eq_none.1 (Option.map_eq_none_iff.1 h) _ pair
  simpa using passed

/-- **A lowered operand is compared as its reading**, without an error. -/
theorem denote_unqualified (plain : r.NamesAvoid [referencePoint, qualifier])
    (schema : row.schema = r.schema) :
    Condition.denote row (Condition.unqualifiedOperand r.name operand)
      = .ok (r.reading row operand) := by
  have point := (plain referencePoint (by simp)).2
  have arity : row.values.length = r.schema.size := by rw [row.arity, schema]
  unfold reading
  cases column : r.column? row operand with
  | some v =>
    obtain ⟨k, f, there, value, refers⟩ := exists_of_column? column
    -- either way the field's own name is left
    have left : Condition.unqualifiedOperand r.name operand = f.name := by
      rcases refers with rfl | rfl
      · exact Condition.unqualifiedOperand_of_not_point
          (ne_point_of_not_mem (point f (List.mem_of_getElem? there)) _)
      · exact Condition.unqualifiedOperand_point r.name f.name
    rw [← schema] at there
    obtain ⟨i, rfl, rfl, position⟩ := row.schema.exists_position there
    rw [left]
    exact Condition.denote_of_place position value
  | none =>
    have unstored : Condition.unqualifiedOperand r.name operand ∉ row.schema.names := by
      rw [schema]
      intro member
      obtain ⟨f, hf, same⟩ := List.mem_map.1 member
      obtain ⟨notName, notPoint⟩ := not_refers_of_column? arity column hf
      -- taking a prefix off could have left a field's name, and leaving it on cannot make one
      by_cases qualified : ∃ rest, operand = r.name ++ "." ++ rest
      · obtain ⟨rest, rfl⟩ := qualified
        rw [Condition.unqualifiedOperand_point] at same
        exact notPoint (by rw [same])
      · rw [Condition.unqualifiedOperand_of_not_point fun rest h => qualified ⟨rest, h⟩] at same
        exact notName same.symm
    have unqualified : ∀ f ∈ row.schema.fields, qualifier ∉ f.name.toList := by
      rw [schema]
      exact (plain qualifier (by simp)).2
    exact Condition.denote_of_unstored unqualified unstored

/-- Only stray operands are compared as something else than what they mean. -/
theorem reading_eq_meaning (arity : row.values.length = r.schema.size) (h : ¬ r.Stray operand) :
    r.reading row operand = r.meaning row operand := by
  unfold reading meaning
  cases column : r.column? row operand with
  | some v => rfl
  | none =>
    refine Condition.unqualifiedOperand_of_not_point fun rest same => h ⟨rest, same, ?_⟩
    -- a field behind the prefix would have been found
    intro member
    obtain ⟨f, hf, rfl⟩ := List.mem_map.1 member
    exact (not_refers_of_column? arity column hf).2 same

end Relation

/-! ### Conditions on a row of the table -/

section Holds

variable {r : Relation} {row : Row}

/-- **What a lowered condition is**: true or false as the readings of its operands make it, and never
an error. -/
theorem Condition.holds_unqualified (plain : r.NamesAvoid [referencePoint, qualifier])
    (schema : row.schema = r.schema) (c : Condition) :
    (c.unqualified r.name).holds row = .ok (c.truth (r.reading row)) := by
  induction c with
  | equal left right =>
    have compared : ∀ operand, denote row (unqualifiedOperand r.name operand)
        = .ok (r.reading row operand) :=
      fun _ => Relation.denote_unqualified plain schema
    rw [unqualified, holds, compared left, ok_bind, compared right, ok_bind, truth]
  -- a first part that decides is the whole truth, and the second is not evaluated
  | and a b iha ihb =>
    rw [unqualified, holds, iha, ok_bind, truth]
    cases a.truth (r.reading row) with
    | true => rw [Bool.true_and]; exact ihb
    | false => rfl
  | or a b iha ihb =>
    rw [unqualified, holds, iha, ok_bind, truth]
    cases a.truth (r.reading row) with
    | true => rfl
    | false => rw [Bool.false_or]; exact ihb

/-- On the stored rows of a table, a condition without stray operands is as it is written. -/
theorem Condition.admits_as_written (sound : r.Sound)
    (plain : r.NamesAvoid [referencePoint, qualifier]) {c : Condition}
    (clean : ∀ operand ∈ c.operands, ¬ r.Stray operand) (member : row ∈ r.rows) :
    admits (Condition.over [r.name] (some c)) row = .ok (c.truth (r.meaning row)) := by
  have means : c.truth (r.reading row) = c.truth (r.meaning row) :=
    truth_congr fun operand ho =>
      Relation.reading_eq_meaning (sound.row_arity row member) (clean operand ho)
  rw [← means]
  exact c.holds_unqualified plain (sound.row_schema row member)

end Holds

/-! ### Rows kept and rows removed -/

section Decided

variable {r : Relation} {condition : Row → Except Error Bool} {p : Row → Bool}

/-- **A deletion whose condition is decided on every row**: what it leaves, and what it reports. -/
theorem Catalog.runDelete_eq_of_decided {c : Catalog} {table : String}
    {selection : Option Condition} (there : c.find? table = some r)
    (decided : ∀ row ∈ r.rows, Condition.admits selection row = .ok (p row)) :
    let left : Relation := { r with rows := r.rows.filter fun row => !p row }
    let n := (r.rows.filter p).length
    c.runDelete table selection = .changed (c.replace table left)
      [.transferred .read r.blockCount, .transferred .write left.blockCount, .removed table n,
        .deleted n] := by
  rw [runDelete, find_eq_ok_iff.2 there]
  dsimp only
  rw [Relation.removeWhere_of_decided decided]

/-- A deletion whose condition is decided on every row removes those of which it is true. -/
theorem Catalog.runDelete_of_decided {c : Catalog} {table : String} {selection : Option Condition}
    (there : c.find? table = some r)
    (decided : ∀ row ∈ r.rows, Condition.admits selection row = .ok (p row)) :
    (c.runDelete table selection).result = .ok [] ∧
      c.ChangesAt table (some { r with rows := r.rows.filter fun row => !p row })
        (c.runDelete table selection).catalog := by
  rw [runDelete_eq_of_decided there decided]
  exact ⟨rfl, find?_replace there _⟩

/-- The rows of a query over one table: those its condition keeps, once each if it is to be so. -/
theorem Query.execute_rows_of_single {q : Query} {c : Catalog} {name : String} (m : Memory)
    (single : q.tables = [name]) (there : c.find? name = some r)
    (decided : ∀ row ∈ r.rows, Condition.admits q.selection row = .ok (p row)) :
    (q.execute c m).rows =
      let kept := r.rows.filter p
      if q.distinct then firstRows q.key [] kept else .ok kept := by
  have tables : q.relations c = .ok [r] := by
    rw [relations_eq_ok_iff, single]
    exact .cons there .nil
  -- where the condition is decided on every row, the loop over them is a filter
  have kept : keepRows (Condition.admits q.selection) r.rows = .ok (r.rows.filter p) := by
    rw [keepRows_of_decided fun row member => ⟨p row, decided row member⟩]
    congr 1
    refine List.filter_congr fun row member => ?_
    rw [decided row member]
    rfl
  rw [execute_rows_eq m tables, Query.rows, sourceRows, ok_bind, kept, ok_bind]

end Decided

namespace Engine

/-- **Conditions mean what is written.** On a table whose names hold neither point nor qualifier, a
condition without stray operands is decided on every row. A query over the table alone keeps the rows
on which the written condition is true, and a deletion removes exactly these. -/
theorem selection_means_as_written {e : Engine} (reachable : e.Reachable) {name : String}
    {r : Relation} (there : e.catalog.find? name = some r)
    (plain : r.NamesAvoid [referencePoint, qualifier]) {tree : Tree} {condition : Condition}
    (written : tree.selection = .ok (some condition))
    (clean : ∀ operand ∈ condition.operands, ¬ r.Stray operand) :
    (∀ q, Statement.ofTree tree = .ok (.select q) → q.tables = [name] →
      (q.execute e.catalog e.memory).rows =
        let kept := r.rows.filter fun row => condition.truth (r.meaning row)
        if q.distinct then firstRows q.key [] kept else .ok kept) ∧
    (∀ selection, Statement.ofTree tree = .ok (.delete name selection) →
      (e.perform tree).result = .ok [] ∧
        (e.perform tree).engine.catalog.find? name =
          some { r with rows := r.rows.filter fun row => !condition.truth (r.meaning row) }) := by
  obtain ⟨rfl, sound⟩ := Catalog.sound_iff.1 reachable.catalog_sound name r there
  constructor
  · -- a query filters the table's rows by the condition as it was lowered
    intro q lowered single
    obtain ⟨condition', written', selection⟩ := (Statement.loweredFrom_of_select lowered).selection
    rw [written] at written'
    rw [single, ← Except.ok.inj written'] at selection
    refine q.execute_rows_of_single e.memory single there fun row member => ?_
    rw [selection]
    exact Condition.admits_as_written sound plain clean member
  · -- a deletion leaves the rows on which that condition is not true
    intro selection lowered
    obtain ⟨condition', written', rfl⟩ := Statement.selection_of_delete lowered
    rw [written] at written'
    obtain rfl := Except.ok.inj written'
    obtain ⟨result, change⟩ := Catalog.runDelete_of_decided there fun row member =>
      Condition.admits_as_written sound plain clean member
    rw [perform_result_of_ok lowered, perform_catalog_of_ok lowered]
    have found := change r.name
    rw [if_pos rfl] at found
    exact ⟨result, found⟩

/-- A condition with both forms of references, and with a text that looks like a reference to another
table. A query keeps the first and the second of three rows, and a deletion leaves the third. -/
theorem selection_means_as_written_two :
    let e := (ofSettings .standard).calls
      ([.node "CREATE" [.node "TABLE" [.leaf "t"],
          .node "ATTRIBUTES" [.node "ATTRIBUTE" [.leaf "a", .leaf "INT"],
            .node "ATTRIBUTE" [.leaf "b", .leaf "STR20"]]],
        .node "INSERT" [.node "TABLE" [.leaf "t"], .node "VALUES" [.leaf "1", .leaf "u.a"]],
        .node "INSERT" [.node "TABLE" [.leaf "t"], .node "VALUES" [.leaf "02", .leaf "x"]],
        .node "INSERT" [.node "TABLE" [.leaf "t"], .node "VALUES" [.leaf "3", .leaf "a"]]].map
        fun tree => .execute 0 tree Transcript.unlimited)
    let selection : Tree := .node "WHERE" [.node "OR" [
      .node "=" [.leaf "t.a", .leaf "2"], .node "=" [.leaf "u.a", .leaf "b"]]]
    let query : Tree := .node "SELECT" [.node "COLUMNS" [.node "COLUMN" [.leaf "*"]],
      .node "FROM" [.node "TABLE" [.leaf "t"]], selection]
    let deletion : Tree := .node "DELETE" [.node "TABLE" [.leaf "t"], selection]
    let s : Schema := ⟨[⟨"a", .int⟩, ⟨"b", .text⟩], by decide, by decide⟩
    (∃ q, Statement.ofTree query = .ok (.select q) ∧
      (q.execute e.catalog e.memory).rows
        = .ok [⟨s, [.int 1, .text "u.a"], rfl⟩, ⟨s, [.int 2, .text "x"], rfl⟩]) ∧
    (e.perform deletion).engine.catalog.find? "t"
      = some ⟨"t", s, [⟨s, [.int 3, .text "a"], rfl⟩]⟩ := by
  intro e selection query deletion s
  let r : Relation := ⟨"t", s, [⟨s, [.int 1, .text "u.a"], rfl⟩, ⟨s, [.int 2, .text "x"], rfl⟩,
    ⟨s, [.int 3, .text "a"], rfl⟩]⟩
  let condition : Condition := .or (.equal "t.a" "2") (.equal "u.a" "b")
  have reachable : e.Reachable := reachable_calls _ _
  have there : e.catalog.find? "t" = some r := by decide +kernel
  have plain : r.NamesAvoid [referencePoint, qualifier] := by
    simp [Relation.NamesAvoid, r, s, referencePoint, qualifier]
  -- of the four operands one begins with the table's name, and a field stands behind it
  have clean : ∀ operand ∈ condition.operands, ¬ r.Stray operand := by
    have apart : ∀ operand ∈ ["2", "u.a", "b"], ¬ "t.".toList <+: operand.toList := by decide
    rintro operand member ⟨rest, same, absent⟩
    by_cases first : operand = "t.a"
    · subst first
      have column : rest = "a" := by
        rw [← Condition.unqualifiedOperand_point "t" rest, ← same]
        decide +kernel
      exact absent (by rw [column]; decide)
    · refine apart operand ?_ ⟨rest.toList, ?_⟩
      · simp only [condition, Condition.operands] at member
        simpa [first] using member
      · rw [same, String.toList_append]
        rfl
  constructor
  · have lowered : Statement.ofTree query = .ok (.select ⟨⟨["*"], ["*"]⟩, false, ["t"],
        some (.or (.equal "a" "2") (.equal "u.a" "b"))⟩) := by
      decide +kernel
    have written : query.selection = .ok (some condition) := by decide +kernel
    have rows := (selection_means_as_written reachable there plain written clean).1 _ lowered rfl
    refine ⟨_, lowered, rows.trans ?_⟩
    decide +kernel
  · have lowered : Statement.ofTree deletion = .ok (.delete "t"
        (some (.or (.equal "a" "2") (.equal "u.a" "b")))) := by
      decide +kernel
    have written : deletion.selection = .ok (some condition) := by decide +kernel
    have left := ((selection_means_as_written reachable there plain written clean).2 _ lowered).2
    refine left.trans ?_
    decide +kernel

/-- **A stray operand loses rows.** The text `t.txt` is stored in a row of the table `t`, and a
condition asks for it. On that row the condition is true as it is written, and the query gives no
row. -/
theorem stray_operand_loses_rows :
    let e := (ofSettings .standard).calls
      ([.node "CREATE" [.node "TABLE" [.leaf "t"],
          .node "ATTRIBUTES" [.node "ATTRIBUTE" [.leaf "file", .leaf "STR20"]]],
        .node "INSERT" [.node "TABLE" [.leaf "t"], .node "VALUES" [.leaf "t.txt"]]].map
        fun tree => .execute 0 tree Transcript.unlimited)
    let query : Tree := .node "SELECT" [.node "COLUMNS" [.node "COLUMN" [.leaf "*"]],
      .node "FROM" [.node "TABLE" [.leaf "t"]],
      .node "WHERE" [.node "=" [.leaf "file", .leaf "t.txt"]]]
    let s : Schema := ⟨[⟨"file", .text⟩], by decide, by decide⟩
    let r : Relation := ⟨"t", s, [⟨s, [.text "t.txt"], rfl⟩]⟩
    let condition : Condition := .equal "file" "t.txt"
    e.catalog.find? "t" = some r ∧ query.selection = .ok (some condition) ∧
      (r.rows.filter fun row => condition.truth (r.meaning row)) = r.rows ∧
      ∃ q, Statement.ofTree query = .ok (.select q) ∧ q.tables = ["t"] ∧
        (q.execute e.catalog e.memory).rows = .ok [] := by
  intro e query s r condition
  -- lowering has cut the literal down to what stands behind the point
  have lowered : Statement.ofTree query
      = .ok (.select ⟨⟨["*"], ["*"]⟩, false, ["t"], some (.equal "file" "txt")⟩) := by
    decide +kernel
  exact ⟨by decide +kernel, by decide +kernel, by decide +kernel, _, lowered, rfl, by decide +kernel⟩

end Engine

end RelEngine
