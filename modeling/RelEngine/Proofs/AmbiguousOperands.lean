import RelEngine.Proofs.FirstOccurrences
import RelEngine.Proofs.JoinedNames
import RelEngine.Proofs.WholeRows

/-!
# Conditions that fail

A condition is lenient with its operands: one that names no field is compared as a text. So a
condition that fails on a row has met the other way in which a reference can fail. One of its
operands is ambiguous: it has no point, it is stored nowhere as it is, and there are two tables
under which it is stored as a column (`Schema.Ambiguous`).

The bound goes from the operands to the whole condition. A comparison fails as its operands do, and
a connective as one of its sides does, if it comes to it at all.

Where no field name holds the qualifier, nothing is stored as a column of a table and no operand is
ambiguous. On such a table every condition is decided on every row, so deletions succeed, and
queries for all columns do.

* `Schema.position_eq_ambiguous_iff` — which references are ambiguous;
* `Condition.holds_failsOnly_ambiguous` — the bound;
* `Condition.fails_only_over_ambiguity` — both halves together.
-/

namespace RelEngine

/-! ### Ambiguous references -/

namespace Schema

/-- **Ambiguous references**: bare ones that are no stored names, but columns stored under two
tables. -/
structure Ambiguous (s : Schema) (reference : String) : Prop where
  bare : referencePoint ∉ reference.toList
  unstored : reference ∉ s.names
  carried : ∃ table table', table ≠ table' ∧
    qualifier ∉ table.toList ∧ qualify table reference ∈ s.names ∧
    qualifier ∉ table'.toList ∧ qualify table' reference ∈ s.names

variable {s : Schema} {reference : String}

/-- A column part stands behind the first qualifier. -/
theorem exists_table_of_columnPart {name : String} (qualified : qualifier ∈ name.toList) :
    ∃ table, qualifier ∉ table.toList ∧ name = qualify table (columnPart name) := by
  unfold columnPart
  split
  · next table column cut =>
    obtain ⟨first, parts⟩ := Text.splitAtFirst_eq_some_iff.1 cut
    refine ⟨table, first, String.toList_inj.1 ?_⟩
    rw [parts, qualify, String.toList_ofList]
  · next uncut => exact absurd qualified (Text.splitAtFirst_eq_none_iff.1 uncut)

/-- The places that carry a column are those where it is stored under some table. -/
theorem mem_carrying_iff_exists_table {i : Fin s.size} :
    i ∈ s.carrying reference ↔
      ∃ table, qualifier ∉ table.toList ∧ (s.field i).name = qualify table reference := by
  rw [mem_carrying_iff]
  constructor
  · rintro ⟨qualified, rfl⟩
    exact exists_table_of_columnPart qualified
  · rintro ⟨table, first, name⟩
    rw [name]
    refine ⟨?_, columnPart_qualify first reference⟩
    rw [qualify, String.toList_ofList]
    simp

/-- Two places that carry a column store it under two tables. -/
theorem exists_tables_of_two {i j : Fin s.size} (differ : i ≠ j) (here : i ∈ s.carrying reference)
    (there : j ∈ s.carrying reference) :
    ∃ table table', table ≠ table' ∧
      qualifier ∉ table.toList ∧ qualify table reference ∈ s.names ∧
      qualifier ∉ table'.toList ∧ qualify table' reference ∈ s.names := by
  obtain ⟨table, first, name⟩ := mem_carrying_iff_exists_table.1 here
  obtain ⟨table', first', name'⟩ := mem_carrying_iff_exists_table.1 there
  refine ⟨table, table', ?_, first, ?_, first', ?_⟩
  · -- one name is at one place
    rintro rfl
    exact differ (field_name_inj (name.trans name'.symm))
  · rw [← name]
    exact List.mem_map_of_mem (List.getElem_mem i.2)
  · rw [← name']
    exact List.mem_map_of_mem (List.getElem_mem j.2)

/-- **The ambiguous references** are those that are told to be so, each by its own error. -/
theorem position_eq_ambiguous_iff {name : String} :
    s.position reference = .error (.ambiguousColumn name) ↔
      name = reference ∧ s.Ambiguous reference := by
  constructor
  · intro h
    unfold position at h
    split at h
    · cases h
    next unfound =>
    split at h
    · -- a reference with a point is found or not
      split at h <;> cases h
    next uncut =>
    split at h
    · cases h
    · cases h
    next i j others carrying =>
    obtain rfl : reference = name := Error.ambiguousColumn.inj (Except.error.inj h)
    -- the places that carry it are listed once each
    have differ : i ≠ j := by
      have nodup := s.nodup_carrying reference
      rw [carrying] at nodup
      exact List.ne_of_not_mem_cons (List.nodup_cons.1 nodup).1
    exact ⟨rfl, Text.splitAtFirst_eq_none_iff.1 uncut, stored?_eq_none_iff_not_mem.1 unfound,
      exists_tables_of_two differ (by simp [carrying]) (by simp [carrying])⟩
  · rintro ⟨rfl, bare, unstored, table, table', differ, first, stored, first', stored'⟩
    -- the two stored names are at two places, and both carry the column
    obtain ⟨i, here⟩ := exists_place_of_mem_names stored
    obtain ⟨j, there⟩ := exists_place_of_mem_names stored'
    have apart : i ≠ j := by
      rintro rfl
      exact differ ((qualify_inj first first').1 (here.symm.trans there)).1
    exact position_eq_ambiguous_of_two bare unstored apart
      (mem_carrying_iff_exists_table.2 ⟨table, first, here⟩)
      (mem_carrying_iff_exists_table.2 ⟨table', first', there⟩)

/-- Without the qualifier in its names, a schema leaves no reference ambiguous. -/
theorem not_ambiguous_of_plain (plain : ∀ f ∈ s.fields, qualifier ∉ f.name.toList) :
    ¬ s.Ambiguous reference := by
  rintro ⟨-, -, table, -, -, -, stored, -⟩
  obtain ⟨f, member, name⟩ := List.mem_map.1 stored
  apply plain f member
  rw [name, qualify, String.toList_ofList]
  simp

end Schema

/-! ### Conditions -/

namespace Condition

variable {row : Row}

/-- An operand fails to denote anything exactly if it is ambiguous. -/
theorem denote_eq_error_iff {operand : String} {err : Error} :
    denote row operand = .error err ↔
      err = .ambiguousColumn operand ∧ row.schema.Ambiguous operand := by
  have names := row.schema.position_failsOnly operand
  -- what does not fail over ambiguity is not ambiguous
  have apart : (∀ name, row.schema.position operand ≠ .error (.ambiguousColumn name)) →
      ¬ (err = .ambiguousColumn operand ∧ row.schema.Ambiguous operand) :=
    fun other ambiguous => other _ (Schema.position_eq_ambiguous_iff.2 ⟨rfl, ambiguous.2⟩)
  rw [denote, Row.get]
  -- a name that is not found is compared as a text, and any other error is of neither kind
  cases found : row.schema.position operand with
  | ok i => exact iff_of_false (fun fails => by cases fails) (apart (by simp [found]))
  | error e =>
    cases e with
    | columnNotFound reference =>
      exact iff_of_false (fun fails => by cases fails) (apart (by simp [found]))
    | ambiguousColumn reference =>
      obtain ⟨rfl, ambiguous⟩ := Schema.position_eq_ambiguous_iff.1 found
      change Except.error _ = _ ↔ _
      rw [Except.error.injEq, eq_comm, and_iff_left ambiguous]
    | _ => exact (names _ found).elim

/-- The error that one of some operands is ambiguous. -/
def Ambiguity (row : Row) (operands : List String) (err : Error) : Prop :=
  ∃ operand ∈ operands, err = .ambiguousColumn operand ∧ row.schema.Ambiguous operand

/-- An operand of a part is an operand of the whole. -/
theorem Ambiguity.mono {operands others : List String} {err : Error} (fewer : operands ⊆ others)
    (h : Ambiguity row operands err) : Ambiguity row others err := by
  obtain ⟨operand, member, error⟩ := h
  exact ⟨operand, fewer member, error⟩

/-- An operand fails only over itself. -/
theorem denote_failsOnly_ambiguous {operands : List String} {operand : String}
    (member : operand ∈ operands) : FailsOnly (Ambiguity row operands) (denote row operand) :=
  fun _ fails => ⟨operand, member, denote_eq_error_iff.1 fails⟩

/-- **A condition fails over an ambiguous operand** of its own, if it fails. -/
theorem holds_failsOnly_ambiguous (row : Row) (c : Condition) :
    FailsOnly (Ambiguity row c.operands) (c.holds row) := by
  induction c with
  | equal l r =>
    refine (denote_failsOnly_ambiguous (by simp [operands])).bind fun _ => ?_
    exact (denote_failsOnly_ambiguous (by simp [operands])).bind fun _ => failsOnly_ok _
  | and a b iha ihb =>
    have left := iha.mono fun _ => Ambiguity.mono (List.subset_append_left a.operands b.operands)
    have right := ihb.mono fun _ => Ambiguity.mono (List.subset_append_right a.operands b.operands)
    refine left.bind fun both => ?_
    -- a false left side decides
    split
    · exact right
    · exact failsOnly_ok _
  | or a b iha ihb =>
    have left := iha.mono fun _ => Ambiguity.mono (List.subset_append_left a.operands b.operands)
    have right := ihb.mono fun _ => Ambiguity.mono (List.subset_append_right a.operands b.operands)
    refine left.bind fun either => ?_
    -- and here a true one
    split
    · exact failsOnly_ok _
    · exact right

/-- Rows without qualified names decide every condition. -/
theorem exists_admits_of_plain (plain : ∀ f ∈ row.schema.fields, qualifier ∉ f.name.toList)
    (selection : Option Condition) : ∃ b, admits selection row = .ok b := by
  cases selection with
  | none => exact ⟨true, rfl⟩
  | some c =>
    cases decided : c.holds row with
    | ok b => exact ⟨b, decided⟩
    | error err =>
      obtain ⟨operand, -, -, ambiguous⟩ := holds_failsOnly_ambiguous row c err decided
      exact absurd ambiguous (Schema.not_ambiguous_of_plain plain)

end Condition

/-! ### Tables without qualified names -/

section Plain

variable {r : Relation}

/-- On the rows of such a table the answers of a condition are there. -/
theorem Relation.Sound.admits_eq (sound : r.Sound)
    (plain : ∀ f ∈ r.schema.fields, qualifier ∉ f.name.toList) (selection : Option Condition) :
    ∀ row ∈ r.rows, Condition.admits selection row
      = .ok (affirmed (Condition.admits selection row)) := by
  intro row member
  rw [← sound.row_schema row member] at plain
  obtain ⟨b, decided⟩ := Condition.exists_admits_of_plain plain selection
  rw [decided]
  rfl

/-- A query for all columns of such a table has rows, and they are rows of the table. -/
theorem Query.exists_rows_of_plain {q : Query} {c : Catalog} {name : String} (m : Memory)
    (single : q.tables = [name]) (there : c.find? name = some r) (sound : r.Sound)
    (plain : ∀ f ∈ r.schema.fields, qualifier ∉ f.name.toList)
    (wild : Projection.isWildcard q.projection.headers = true) :
    ∃ rows, (q.execute c m).rows = .ok rows ∧ ∀ row ∈ rows, row ∈ r.rows := by
  rw [execute_rows_of_single m single there (sound.admits_eq plain q.selection)]
  dsimp only
  split
  · -- for all columns, the key of a row is there
    have keys : ∀ row ∈ r.rows.filter fun row => affirmed (Condition.admits q.selection row),
        q.key row = .ok row.values := fun row _ => if_pos wild
    have start : ∀ values, values ∈ ([] : List (List Value)) ↔
        ∃ old ∈ ([] : List Row), old.values = values := by simp
    have kept := firstRows_eq_ok keys start
    refine ⟨_, kept, fun row member => ?_⟩
    exact List.mem_of_mem_filter ((firstRows_sublist kept).subset member)
  · exact ⟨_, rfl, fun row member => List.mem_of_mem_filter member⟩

end Plain

namespace Condition

/-- **Conditions fail only over ambiguity.** When a condition fails on a row, the error is that one
of its own operands is ambiguous under the schema of the row. So on a stored table whose fields have
names without the qualifier every deletion succeeds, and so does every query for all columns that is
over this table alone, whatever the conditions are. -/
theorem fails_only_over_ambiguity :
    (∀ (row : Row) (c : Condition) (err : Error), c.holds row = .error err →
      ∃ operand ∈ c.operands, err = .ambiguousColumn operand ∧ row.schema.Ambiguous operand) ∧
    (∀ e : Engine, e.Reachable → ∀ (name : String) (r : Relation), e.catalog.find? name = some r →
      (∀ f ∈ r.schema.fields, qualifier ∉ f.name.toList) → ∀ tree : Tree,
      (∀ selection, Statement.ofTree tree = .ok (.delete name selection) →
        (e.perform tree).result = .ok []) ∧
      (∀ q, Statement.ofTree tree = .ok (.select q) → q.tables = [name] →
        Projection.isWildcard q.projection.headers = true →
        ∃ rows lines, (q.execute e.catalog e.memory).rows = .ok rows ∧
          (e.perform tree).result = .ok lines)) := by
  refine ⟨holds_failsOnly_ambiguous, fun e reachable name r there plain tree => ?_⟩
  have sound := (Catalog.sound_iff.1 reachable.catalog_sound name r there).2
  constructor
  · intro selection lowered
    rw [Engine.perform_result_of_ok lowered]
    exact (Catalog.runDelete_of_decided there (sound.admits_eq plain selection)).1
  · intro q lowered single wild
    obtain ⟨rows, given, stored⟩ :=
      Query.exists_rows_of_plain e.memory single there sound plain wild
    -- the keys ask for all columns as the headers do, and stored rows are printed whole
    have keys : Projection.isWildcard q.projection.keys = true := by
      rw [(Statement.loweredFrom_of_select lowered).keys]
      exact Projection.isWildcard_map_key _ wild
    obtain ⟨lines, printed⟩ := Renderer.exists_table_wildcard
      (fun row member => (sound.row_typed row (stored row member)).matches) e.renderer keys
    refine ⟨rows, lines, given, ?_⟩
    rw [Engine.perform_result_of_ok lowered]
    change (q.execute e.catalog e.memory).rows.bind (fun rows => e.renderer.table rows q.projection)
      = .ok lines
    rw [given]
    exact printed

/-- A conjunction that comes to its right side fails there over `id`, which two tables have. On a
table with plain names odd operands are compared as texts: a deletion and a query for distinct rows
succeed. -/
theorem fails_only_over_ambiguity_joined :
    let schema : Schema := ⟨[⟨"a#id", .int⟩, ⟨"b#id", .int⟩], by decide, by decide⟩
    let row : Row := ⟨schema, [.int 1, .int 2], rfl⟩
    let c : Condition := .and (.equal "a.id" "1") (.equal "7" "id")
    let e := (Engine.ofSettings .standard).calls
      ([.node "CREATE" [.node "TABLE" [.leaf "t"],
          .node "ATTRIBUTES" [.node "ATTRIBUTE" [.leaf "id", .leaf "INT"]]],
        .node "INSERT" [.node "TABLE" [.leaf "t"], .node "VALUES" [.leaf "5"]],
        .node "INSERT" [.node "TABLE" [.leaf "t"], .node "VALUES" [.leaf "5"]]].map
        fun tree => .execute 0 tree Transcript.unlimited)
    let selection : Tree := .node "WHERE" [.node "OR" [
      .node "=" [.leaf "#id", .leaf "a.b.c"], .node "=" [.leaf "t.id", .leaf "5"]]]
    let deletion : Tree := .node "DELETE" [.node "TABLE" [.leaf "t"], selection]
    let query : Tree := .node "SELECT" [
      .node "COLUMNS" [.node "DISTINCT" [.node "COLUMN" [.leaf "*"]]],
      .node "FROM" [.node "TABLE" [.leaf "t"]], selection]
    c.holds row = .error (.ambiguousColumn "id") ∧ schema.Ambiguous "id" ∧
      (e.perform deletion).result = .ok [] ∧ ∃ lines, (e.perform query).result = .ok lines := by
  intro schema row c e selection deletion query
  -- the left side holds, so that the right side is asked
  have failed : c.holds row = .error (.ambiguousColumn "id") := by decide +kernel
  obtain ⟨operand, -, same, ambiguous⟩ := fails_only_over_ambiguity.1 row c _ failed
  obtain rfl := Error.ambiguousColumn.inj same
  -- the table as it is stored, and both statements as they are lowered
  let s : Schema := ⟨[⟨"id", .int⟩], by decide, by decide⟩
  let r : Relation := ⟨"t", s, [⟨s, [.int 5], rfl⟩, ⟨s, [.int 5], rfl⟩]⟩
  let lowered : Condition := .or (.equal "#id" "a.b.c") (.equal "id" "5")
  have reachable : e.Reachable := Engine.reachable_calls _ _
  have there : e.catalog.find? "t" = some r := by decide +kernel
  have plain : ∀ f ∈ r.schema.fields, qualifier ∉ f.name.toList := by decide
  have delete : Statement.ofTree deletion = .ok (.delete "t" (some lowered)) := by decide +kernel
  have select : Statement.ofTree query
      = .ok (.select ⟨⟨["*"], ["*"]⟩, true, ["t"], some lowered⟩) := by
    decide +kernel
  have succeeds := fails_only_over_ambiguity.2 e reachable "t" r there plain
  obtain ⟨rows, lines, -, printed⟩ := (succeeds query).2 _ select rfl rfl
  exact ⟨failed, ambiguous, (succeeds deletion).1 _ delete, lines, printed⟩

end Condition

end RelEngine
