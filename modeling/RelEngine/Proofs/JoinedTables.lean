import Mathlib.Algebra.BigOperators.Group.List.Basic
import RelEngine.Proofs.PickedRows
import RelEngine.Proofs.QueryMismatches

/-!
# Tables that can be joined

A query for all columns of several tables, without a condition, gives as many rows as there are
choices of one row from each table, or it gives none because the tables cannot be joined. There is
one obstacle only. A joined row stores a field under the name of its table, the qualifier, and the
column part of its own name, and two fields of the tables may come to one name in this way
(`Relation.qualifiedNames`).

Nothing that is checked when tables are made rules this out. The column part of a stored name is
what follows the first qualifier in it, and whatever stands before is lost. So two fields of *one*
table come to one name as soon as they differ only there, and this table can be joined with no other
one. Between different tables nothing of the kind happens as long as their names have no qualifier
(`nodup_qualifiedNames_iff`).

* `length_tuples` — the choices are counted by a product;
* `Engine.gives_joined` — tables whose qualified names differ are joined, and all rows printed;
* `Engine.join_different_tables` — when a query over different tables succeeds, and how it fails.
-/

namespace RelEngine

/-! ### How many choices there are -/

/-- There is one choice for each way to take a row of every table, counted by a product. -/
theorem length_tuples (tables : List Relation) :
    (tuples tables).length = (tables.map fun r => r.rows.length).prod := by
  induction tables with
  | nil => rfl
  | cons r tables ih =>
    -- every row of the first table goes with the same choices from the others
    have each : ∀ row : Row, ((tuples tables).map (row :: ·)).length = (tuples tables).length :=
      fun row => List.length_map _
    rw [tuples_cons, List.length_flatMap]
    simp only [each]
    rw [List.map_const', List.sum_replicate_nat, ih, List.map_cons, List.prod_cons]

/-- A query over several tables whose qualified names differ starts from all choices. -/
theorem Query.exists_joined_rows {tables : List Relation} (sound : ∀ r ∈ tables, r.Sound)
    (several : 2 ≤ tables.length) (differ : (tables.flatMap Relation.qualifiedNames).Nodup) :
    ∃ rows, sourceRows tables = .ok rows ∧ (∀ row ∈ rows, row.Typed) ∧
      rows.length = (tables.map fun r => r.rows.length).prod := by
  have nonempty : tables ≠ [] := by
    rintro rfl
    exact absurd several (by decide)
  -- the names differ, and that is all that a joined schema asks for
  have schemaOf : ∃ schema, sourceSchema tables = .ok schema := by
    rcases Schema.qualified_cases nonempty with ⟨-, schema, joined⟩ | ⟨name, twice, -⟩
    · refine ⟨schema, ?_⟩
      match tables, several with
      | _ :: _ :: _, _ => exact joined
    · -- no name stands there twice
      have once := List.nodup_iff_count_le_one.1 differ name
      omega
  obtain ⟨schema, schemaOf⟩ := schemaOf
  obtain ⟨rows, source, typed, length⟩ := exists_typed_source sound schemaOf
  exact ⟨rows, source, typed, length.trans (length_tuples tables)⟩

/-! ### Names that differ -/

/-- **Qualified names of different tables.** As long as the names of the tables have no qualifier,
two of the qualified names coincide within one table only, where two column parts do. -/
theorem nodup_qualifiedNames_iff {tables : List Relation}
    (apart : (tables.map Relation.name).Nodup)
    (plain : ∀ r ∈ tables, qualifier ∉ r.name.toList) :
    (tables.flatMap Relation.qualifiedNames).Nodup ↔
      ∀ r ∈ tables, (r.schema.names.map columnPart).Nodup := by
  -- a qualified name is made of the column part alone, whatever stood before it
  have names : ∀ r : Relation,
      r.qualifiedNames = (r.schema.names.map columnPart).map (qualify r.name) := by
    intro r
    rw [Relation.qualifiedNames, List.map_map]
    rfl
  -- names of two tables differ in what stands before the qualifier
  have between : tables.Pairwise fun r r' => r.qualifiedNames.Disjoint r'.qualifiedNames := by
    rw [List.Nodup, List.pairwise_map] at apart
    refine apart.imp_of_mem fun {r r'} hr hr' differ => ?_
    intro name member member'
    rw [names, List.mem_map] at member member'
    obtain ⟨column, -, rfl⟩ := member
    obtain ⟨column', -, same⟩ := member'
    exact differ ((qualify_inj (plain r' hr') (plain r hr)).1 same).1.symm
  have within : ∀ r ∈ tables,
      (r.qualifiedNames.Nodup ↔ (r.schema.names.map columnPart).Nodup) := by
    intro r hr
    rw [names]
    refine List.nodup_map_iff fun column column' same => ?_
    exact ((qualify_inj (plain r hr) (plain r hr)).1 same).2
  rw [List.nodup_flatMap]
  constructor
  · rintro ⟨each, -⟩ r hr
    exact (within r hr).1 (each r hr)
  · intro each
    exact ⟨fun r hr => (within r hr).2 (each r hr), between⟩

/-! ### The query for all columns -/

namespace Engine

variable {σ : Type} [Sink σ] {e : Engine} {tree : Tree} {names : List String}
  {tables : List Relation}

/-- The query over some tables for all columns and without a condition. -/
theorem lowers_all (asks : tree.Asks [Projection.wildcard] names none) (named : names ≠ []) :
    Statement.ofTree tree
      = .ok (.select (Query.ofReferences [Projection.wildcard] names none)) := by
  refine asks.lowers (List.cons_ne_nil _ _) named fun reference member => ?_
  obtain rfl := List.mem_singleton.1 member
  decide

/-- **Tables are joined** when their qualified names differ, and all rows are printed. -/
theorem gives_joined (reachable : e.Reachable) (several : 2 ≤ names.length)
    (there : List.Forall₂ (fun name r => e.catalog.find? name = some r) names tables)
    (asks : tree.Asks [Projection.wildcard] names none)
    (differ : (tables.flatMap Relation.qualifiedNames).Nodup) :
    ∃ rows, e.Gives tree rows ∧ rows.length = (tables.map fun r => r.rows.length).prod := by
  obtain ⟨-, sound⟩ := reachable.sound_of_found there
  have named : names ≠ [] := by
    rintro rfl
    exact absurd several (by decide)
  have lowered := lowers_all asks named
  set q := Query.ofReferences [Projection.wildcard] names none with query
  obtain ⟨rows, source, typed, length⟩ :=
    Query.exists_joined_rows sound (there.length_eq ▸ several) differ
  have selection : q.selection = none := Condition.over_none names
  -- without a condition every row is kept
  have kept : (q.execute e.catalog e.memory).rows = .ok rows := by
    have decided : ∀ row ∈ rows, ∃ b, Condition.admits q.selection row = .ok b := by
      rw [selection]
      exact fun _ _ => ⟨true, rfl⟩
    rw [Query.execute_rows e.memory rfl (Query.relations_eq_ok_iff.2 there) source,
      keepRows_of_decided decided, selection]
    exact congrArg Except.ok (List.filter_eq_self.2 fun _ _ => rfl)
  -- all columns are asked for, and whole rows are always printed
  have wild : Projection.isWildcard q.projection.keys = true := by
    rw [query, Query.ofReferences]
    exact Projection.isWildcard_map_key _ rfl
  obtain ⟨lines, table⟩ := Renderer.exists_table_wildcard
    (fun row member => (typed row member).matches) e.renderer wild
  exact ⟨rows, gives_of_table lowered kept table, length⟩

/-- **Joining different tables.** A query asks for all columns of two or more different tables. When
their qualified names differ it succeeds, and gives as many rows as the product of the numbers of
their rows. When two of the names coincide it fails, and the error has such a name. As long as the
names of the tables have no qualifier, the names coincide iff two fields of one table have the same
column part. -/
theorem join_different_tables (reachable : e.Reachable) (several : 2 ≤ names.length)
    (apart : names.Nodup)
    (there : List.Forall₂ (fun name r => e.catalog.find? name = some r) names tables)
    (asks : tree.Asks [Projection.wildcard] names none) (elapsed : Nat) {out : σ}
    (never : Sink.NeverFails out) :
    ((tables.flatMap Relation.qualifiedNames).Nodup →
      (∃ rows, e.Gives tree rows ∧ rows.length = (tables.map fun r => r.rows.length).prod) ∧
        (e.execute elapsed tree out).result = .ok ()) ∧
    (¬ (tables.flatMap Relation.qualifiedNames).Nodup → ∃ name,
      2 ≤ (tables.flatMap Relation.qualifiedNames).count name ∧
        (e.execute elapsed tree out).result = .error (.mismatch (.duplicateField name))) ∧
    ((∀ r ∈ tables, qualifier ∉ r.name.toList) →
      ((tables.flatMap Relation.qualifiedNames).Nodup ↔
        ∀ r ∈ tables, (r.schema.names.map columnPart).Nodup)) := by
  obtain ⟨stored, -⟩ := reachable.sound_of_found there
  have named : names ≠ [] := by
    rintro rfl
    exact absurd several (by decide)
  refine ⟨fun differ => ?_, fun coincide => ?_, fun plain => ?_⟩
  · have gives := gives_joined reachable several there asks differ
    refine ⟨gives, ?_⟩
    obtain ⟨rows, ⟨q, lines, -, -, -, ended⟩, -⟩ := gives
    exact execute_of_neverFails ended never
  · -- of what can become of the query, only the failure is left, and it names the repeated one
    rcases perform_select_cases reachable (lowers_all asks named) there with
      ⟨name, -, twice, failed⟩ | ⟨single | differ, -⟩
    · exact ⟨name, twice, Outcome.deliver_of_error failed elapsed out⟩
    · -- there are two tables at least
      rw [there.length_eq] at several
      omega
    · exact absurd differ coincide
  · exact nodup_qualifiedNames_iff (stored ▸ apart) plain

/-- Two rows are joined with three. Fields of different tables may have one name, and a qualifier in
a name does no harm as long as the column parts differ. -/
theorem join_different_tables_six :
    let e := (ofSettings .standard).calls
      ([.node "CREATE" [.node "TABLE" [.leaf "t"],
          .node "ATTRIBUTES" [.node "ATTRIBUTE" [.leaf "x#a", .leaf "INT"],
            .node "ATTRIBUTE" [.leaf "b", .leaf "INT"]]],
        .node "CREATE" [.node "TABLE" [.leaf "u"],
          .node "ATTRIBUTES" [.node "ATTRIBUTE" [.leaf "a", .leaf "STR20"]]],
        .node "INSERT" [.node "TABLE" [.leaf "t"], .node "VALUES" [.leaf "1", .leaf "2"]],
        .node "INSERT" [.node "TABLE" [.leaf "t"], .node "VALUES" [.leaf "1", .leaf "3"]],
        .node "INSERT" [.node "TABLE" [.leaf "u"], .node "VALUES" [.leaf "x"]],
        .node "INSERT" [.node "TABLE" [.leaf "u"], .node "VALUES" [.leaf "y"]],
        .node "INSERT" [.node "TABLE" [.leaf "u"], .node "VALUES" [.leaf "z"]]].map
          fun tree => .execute 0 tree Transcript.unlimited)
    let tree : Tree := .node "SELECT" [.node "COLUMNS" [.node "COLUMN" [.leaf "*"]],
      .node "FROM" [.node "TABLE" [.leaf "u"], .node "TABLE" [.leaf "t"]]]
    (∃ rows, e.Gives tree rows ∧ rows.length = 6) ∧
      (e.execute 0 tree Transcript.unlimited).result = .ok () := by
  intro e tree
  have reachable : e.Reachable := reachable_calls _ _
  let s : Schema := ⟨[⟨"x#a", .int⟩, ⟨"b", .int⟩], by decide, by decide⟩
  let v : Schema := ⟨[⟨"a", .text⟩], by decide, by decide⟩
  let t : Relation := ⟨"t", s, [⟨s, [.int 1, .int 2], rfl⟩, ⟨s, [.int 1, .int 3], rfl⟩]⟩
  let u : Relation :=
    ⟨"u", v, [⟨v, [.text "x"], rfl⟩, ⟨v, [.text "y"], rfl⟩, ⟨v, [.text "z"], rfl⟩]⟩
  have found : e.catalog.find? "u" = some u ∧ e.catalog.find? "t" = some t := by decide +kernel
  have asks : tree.Asks [Projection.wildcard] ["u", "t"] none :=
    ⟨by decide, ⟨_, rfl, by decide, .cons ⟨_, rfl, rfl⟩ .nil⟩,
      ⟨_, rfl, .cons rfl (.cons rfl .nil)⟩, by decide⟩
  obtain ⟨joins, -, names⟩ := join_different_tables reachable (by decide) (by decide)
    (.cons found.1 (.cons found.2 .nil)) asks 0 Transcript.neverFails_unlimited
  exact joins ((names (by decide +kernel)).2 (by decide +kernel))

/-- Two fields of one table that differ only in what stands before a qualifier. The table cannot be
joined with another one, although its own fields have different names. -/
theorem different_tables_are_not_joined :
    let e := (ofSettings .standard).calls
      ([.node "CREATE" [.node "TABLE" [.leaf "t"],
          .node "ATTRIBUTES" [.node "ATTRIBUTE" [.leaf "in#id", .leaf "INT"],
            .node "ATTRIBUTE" [.leaf "out#id", .leaf "INT"]]],
        .node "CREATE" [.node "TABLE" [.leaf "u"],
          .node "ATTRIBUTES" [.node "ATTRIBUTE" [.leaf "a", .leaf "INT"]]],
        .node "INSERT" [.node "TABLE" [.leaf "t"], .node "VALUES" [.leaf "1", .leaf "2"]],
        .node "INSERT" [.node "TABLE" [.leaf "u"], .node "VALUES" [.leaf "3"]]].map
          fun tree => .execute 0 tree Transcript.unlimited)
    let tree : Tree := .node "SELECT" [.node "COLUMNS" [.node "COLUMN" [.leaf "*"]],
      .node "FROM" [.node "TABLE" [.leaf "t"], .node "TABLE" [.leaf "u"]]]
    e.Reachable ∧ ["t", "u"].Nodup ∧
      (∃ tables, List.Forall₂ (fun name r => e.catalog.find? name = some r) ["t", "u"] tables) ∧
      tree.Asks [Projection.wildcard] ["t", "u"] none ∧
      (e.execute 0 tree Transcript.unlimited).result
        = .error (.mismatch (.duplicateField "t#id")) := by
  intro e tree
  let s : Schema := ⟨[⟨"in#id", .int⟩, ⟨"out#id", .int⟩], by decide, by decide⟩
  let v : Schema := ⟨[⟨"a", .int⟩], by decide, by decide⟩
  have found : e.catalog.find? "t" = some ⟨"t", s, [⟨s, [.int 1, .int 2], rfl⟩]⟩ ∧
      e.catalog.find? "u" = some ⟨"u", v, [⟨v, [.int 3], rfl⟩]⟩ := by
    decide +kernel
  refine ⟨reachable_calls _ _, by decide, ⟨_, .cons found.1 (.cons found.2 .nil)⟩, ?_, ?_⟩
  · exact ⟨by decide, ⟨_, rfl, by decide, .cons ⟨_, rfl, rfl⟩ .nil⟩,
      ⟨_, rfl, .cons rfl (.cons rfl .nil)⟩, by decide⟩
  · decide +kernel

end Engine

end RelEngine
