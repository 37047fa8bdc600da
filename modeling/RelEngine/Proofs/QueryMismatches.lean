import RelEngine.Proofs.Atomicity
import RelEngine.Proofs.TableLayout

/-!
# Mismatches in queries

On the way of a query over existing tables there are several checks that values, rows and schemas
fit together: the names of a joined schema have to differ, each row needs one value for each field
whenever it is re-homed or joined, and a printed value has to be of the kind that its field declares.
Of all these checks only the first can fail. A query ends with a mismatch exactly when it has several
sources and two of their qualified names coincide.

The other checks are passed because stored rows are typed. Fields and values of a joined row are
those of its parts, in one order, so that the types of the fields go along with the values
(`Combination.Of.typed`). The rows of a query are among the joined rows, and a value is fetched from
the place where its type is looked up.

* `Query.rows_cases` — two qualified names coincide, or the query starts from typed rows;
* `Renderer.fieldText_failsOnly_of_typed` — printing a typed row fails over a reference only;
* `Engine.select_mismatch_iff` — when a query ends with a mismatch, and what else it can end with.
-/

namespace RelEngine

/-! ### Names that coincide -/

/-- What is repeated stands in the list, and was seen before or stands there twice. -/
theorem firstRepeat_eq_some {seen names : List String} {name : String}
    (h : firstRepeat seen names = some name) :
    name ∈ names ∧ (name ∈ seen ∨ 2 ≤ names.count name) := by
  induction names generalizing seen with
  | nil => cases h
  | cons first rest ih =>
    rw [firstRepeat] at h
    -- the head is repeated if it was seen before, and else it is seen from here on
    by_cases known : first ∈ seen
    · rw [if_pos known] at h
      obtain rfl := Option.some.inj h
      exact ⟨List.mem_cons_self, .inl known⟩
    · rw [if_neg known] at h
      obtain ⟨member, again⟩ := ih h
      refine ⟨List.mem_cons_of_mem _ member, ?_⟩
      rcases again with before | twice
      · rcases List.mem_cons.1 before with rfl | before
        · -- it stands at the head, and once more behind it
          have later : 1 ≤ rest.count name := List.one_le_count_iff.2 member
          rw [List.count_cons_self]
          exact .inr (by omega)
        · exact .inl before
      · exact .inr (twice.trans (List.count_le_count_cons ..))

/-- A list of fields makes a schema, or two of the names coincide. -/
theorem Schema.ofFields_cases {fields : List Field} (nonempty : fields ≠ []) :
    ((fields.map Field.name).Nodup ∧ ∃ schema, ofFields fields = .ok schema) ∨
      ∃ name, 2 ≤ (fields.map Field.name).count name ∧
        ofFields fields = .error (.mismatch (.duplicateField name)) := by
  unfold ofFields
  rw [dif_neg nonempty]
  -- the only obstacle that is left is a name that is repeated
  split
  · next name repeated =>
    obtain ⟨-, before | twice⟩ := firstRepeat_eq_some repeated
    · cases before
    · exact .inr ⟨name, twice, rfl⟩
  · next none => exact .inl ⟨(firstRepeat_eq_none_iff.1 none).1, _, rfl⟩

/-- The names under which a joined row stores the fields of a table. -/
def Relation.qualifiedNames (r : Relation) : List String :=
  r.schema.names.map fun name => qualify r.name (columnPart name)

/-- The qualified fields of several tables go by the qualified names. -/
theorem Schema.names_qualifiedFields (tables : List Relation) :
    ((tables.map fun r => (r.name, r.schema)).flatMap fun p => qualifiedFields p.1 p.2).map
        Field.name = tables.flatMap Relation.qualifiedNames := by
  rw [List.flatMap_map, List.map_flatMap]
  refine List.flatMap_congr fun r _ => ?_
  rw [qualifiedFields, Relation.qualifiedNames, names, List.map_map, List.map_map]
  rfl

/-- Several tables can be joined, or two of their qualified names coincide. -/
theorem Schema.qualified_cases {tables : List Relation} (nonempty : tables ≠ []) :
    ((tables.flatMap Relation.qualifiedNames).Nodup ∧
        ∃ schema, qualified (tables.map fun r => (r.name, r.schema)) = .ok schema) ∨
      ∃ name, 2 ≤ (tables.flatMap Relation.qualifiedNames).count name ∧
        qualified (tables.map fun r => (r.name, r.schema))
          = .error (.mismatch (.duplicateField name)) := by
  rw [← names_qualifiedFields]
  apply ofFields_cases
  obtain ⟨r, rest, rfl⟩ := List.exists_cons_of_ne_nil nonempty
  simp [qualifiedFields, r.schema.fields_ne_nil]

/-! ### Joined rows are typed -/

/-- The values of a typed row have the types of the fields, one by one. -/
theorem Row.typed_iff_forall₂ {row : Row} : row.Typed ↔
    List.Forall₂ (fun type v => v.HasType type) (row.schema.fields.map Field.type) row.values := by
  -- both say the same of each place, once the lengths agree
  rw [List.forall₂_iff_get]
  constructor
  · intro typed
    refine ⟨by rw [List.length_map, row.arity], fun i within _ => ?_⟩
    rw [List.length_map] at within
    simpa [value, Schema.field] using typed ⟨i, within⟩
  · rintro ⟨-, each⟩ i
    have there := each i.1 (by rw [List.length_map]; exact i.2) (by rw [row.arity]; exact i.2)
    simpa [value, Schema.field] using there

/-- The types of a source schema are those of the tables, one table after the other. -/
theorem Query.types_sourceSchema {tables : List Relation} {schema : Schema}
    (h : sourceSchema tables = .ok schema) :
    schema.fields.map Field.type
      = tables.flatMap fun r => r.schema.fields.map Field.type := by
  have joined : Schema.qualified (tables.map fun r => (r.name, r.schema)) = .ok schema →
      schema.fields.map Field.type = tables.flatMap fun r => r.schema.fields.map Field.type := by
    intro qualifies
    rw [Schema.ofFields_eq_ok_iff.1 qualifies, List.flatMap_map, List.map_flatMap]
    refine List.flatMap_congr fun r _ => ?_
    -- the qualified fields differ from the stored ones in their names only
    rw [Schema.qualifiedFields, List.map_map]
    rfl
  rcases tables with _ | ⟨only, _ | ⟨inner, inners⟩⟩
  · exact joined h
  · -- a single source keeps its schema
    obtain rfl : only.schema = schema := Except.ok.inj h
    rw [List.flatMap_singleton]
  · exact joined h

/-- **Joined rows are typed**, since their parts are. -/
theorem Combination.Of.typed {tables : List Relation} {schema : Schema} {c : Combination}
    (of : c.Of tables schema) (sound : ∀ r ∈ tables, r.Sound)
    (schemaOf : Query.sourceSchema tables = .ok schema) : c.row.Typed := by
  rw [Row.typed_iff_forall₂, of.joined.1, of.joined.2, Query.types_sourceSchema schemaOf]
  -- each part is a row of its table, so it has the types of that table
  have parts := (List.forall₂_and_left tables c.parts).2 ⟨sound, of.stored.forall₂⟩
  refine List.rel_flatMap parts ?_
  rintro r part ⟨sound, member⟩
  show List.Forall₂ _ (r.schema.fields.map Field.type) part.values
  rw [← sound.row_schema part member]
  exact Row.typed_iff_forall₂.1 (sound.row_typed part member)

/-- A query with a source schema starts from typed rows, one for each choice from its tables. -/
theorem Query.exists_typed_source {tables : List Relation} {schema : Schema}
    (sound : ∀ r ∈ tables, r.Sound) (schemaOf : sourceSchema tables = .ok schema) :
    ∃ source, sourceRows tables = .ok source ∧ (∀ row ∈ source, row.Typed) ∧
      source.length = (tuples tables).length := by
  obtain ⟨rows, source, joins⟩ := exists_sourceRows sound schemaOf
  obtain ⟨cs, product, source'⟩ := sourceRows_isCrossProduct sound schemaOf
  obtain rfl : rows = cs.map Combination.row := by
    rw [source] at source'
    exact Except.ok.inj source'
  refine ⟨_, source, fun row member => ?_, joins.length_eq.symm⟩
  -- each row is that of a combination
  obtain ⟨c, hc, rfl⟩ := List.mem_map.1 member
  exact ((product.mem_iff c).1 hc).typed sound schemaOf

/-- **Starting a query.** Two of the qualified names of several sources coincide, or the query has
rows to start from, and they are typed. -/
theorem Query.rows_cases {tables : List Relation} (sound : ∀ r ∈ tables, r.Sound)
    (nonempty : tables ≠ []) (q : Query) :
    (∃ name, 2 ≤ tables.length ∧ 2 ≤ (tables.flatMap Relation.qualifiedNames).count name ∧
        q.rows tables = .error (.mismatch (.duplicateField name))) ∨
      ((tables.length = 1 ∨ (tables.flatMap Relation.qualifiedNames).Nodup) ∧
        ∃ source, sourceRows tables = .ok source ∧ ∀ row ∈ source, row.Typed) := by
  have typed : ∀ {schema}, sourceSchema tables = .ok schema →
      ∃ source, sourceRows tables = .ok source ∧ ∀ row ∈ source, row.Typed := by
    intro schema schemaOf
    obtain ⟨source, start, typed, -⟩ := exists_typed_source sound schemaOf
    exact ⟨source, start, typed⟩
  match tables, nonempty with
  -- a single table is not qualified, so that its names cannot coincide
  | [only], _ => exact .inr ⟨.inl rfl, typed rfl⟩
  | outer :: inner :: inners, nonempty =>
    rcases Schema.qualified_cases nonempty with ⟨apart, schema, qualifies⟩ | ⟨name, twice, fails⟩
    · exact .inr ⟨.inr apart, typed qualifies⟩
    · refine .inl ⟨name, by simp, twice, ?_⟩
      rw [rows, sourceRows, fails]
      · rfl
      · exact List.cons_ne_nil _ _

/-! ### Typed rows are printed -/

namespace Renderer

/-- A value is fetched from the place where its type is looked up, so a typed row is printed as far
as references resolve. -/
theorem fieldText_failsOnly_of_typed {row : Row} (typed : row.Typed) (reference : String) :
    FailsOnly Error.IsName (fieldText row reference) := by
  cases found : row.schema.position reference with
  | error e =>
    have type : row.schema.typeOf reference = .error e := by
      rw [Schema.typeOf, found]
      rfl
    rw [fieldText, type, error_bind]
    exact failsOnly_error.2 (row.schema.position_failsOnly reference e found)
  | ok i =>
    have value : row.values[i.1]? = some (row.value i) := List.getElem?_eq_getElem _
    rw [fieldText_of_place found value (typed i)]
    exact failsOnly_ok _

end Renderer

namespace Engine

variable {σ : Type} [Sink σ] {e : Engine} {tree : Tree} {q : Query} {tables : List Relation}

/-- Two qualified names coincide, or only a reference can fail. -/
theorem perform_select_cases (reachable : e.Reachable)
    (lowered : Statement.ofTree tree = .ok (.select q))
    (there : List.Forall₂ (fun name r => e.catalog.find? name = some r) q.tables tables) :
    (∃ name, 2 ≤ tables.length ∧ 2 ≤ (tables.flatMap Relation.qualifiedNames).count name ∧
        (e.perform tree).result = .error (.mismatch (.duplicateField name))) ∨
      ((tables.length = 1 ∨ (tables.flatMap Relation.qualifiedNames).Nodup) ∧
        FailsOnly Error.IsName (e.perform tree).result) := by
  obtain ⟨-, sound⟩ := reachable.sound_of_found there
  have some : tables ≠ [] := by
    rintro rfl
    exact (Statement.loweredFrom_of_select lowered).named (List.forall₂_nil_right_iff.1 there)
  -- what the statement gives is the rows of the query, laid out
  have result : (e.perform tree).result
      = (q.rows tables).bind fun rows => e.renderer.table rows q.projection := by
    rw [perform_result_of_ok lowered,
      ← q.execute_rows_eq e.memory (Query.relations_eq_ok_iff.2 there)]
    rfl
  rw [result]
  rcases q.rows_cases sound some with ⟨name, several, twice, fails⟩ | ⟨apart, source, start, typed⟩
  · refine .inl ⟨name, several, twice, ?_⟩
    rw [fails]
    rfl
  · refine .inr ⟨apart, ?_⟩
    cases ended : q.rows tables with
    | error err => exact failsOnly_error.2 (Query.rows_failsOnly_of_source start err ended)
    | ok rows =>
      -- the rows of the query are among those that it starts from
      obtain ⟨source', start', sublist⟩ := Query.exists_source ended
      obtain rfl : source = source' := by
        rw [start] at start'
        exact Except.ok.inj start'
      refine Renderer.table_failsOnly (fun row member => ?_) e.renderer q.projection
      exact Renderer.fieldText_failsOnly_of_typed (typed row (sublist.subset member))

/-- **Mismatches in queries.** A query is over existing tables. It ends with a mismatch if and only
if it has two sources or more and two of their qualified names coincide. The mismatch then is such a
name, and any other error is one of a reference or one of output. -/
theorem select_mismatch_iff (reachable : e.Reachable)
    (lowered : Statement.ofTree tree = .ok (.select q))
    (there : List.Forall₂ (fun name r => e.catalog.find? name = some r) q.tables tables)
    (elapsed : Nat) (out : σ) :
    ((∃ cause, (e.execute elapsed tree out).result = .error (.mismatch cause)) ↔
      2 ≤ q.tables.length ∧ ¬ (tables.flatMap Relation.qualifiedNames).Nodup) ∧
    ∀ err, (e.execute elapsed tree out).result = .error err →
      err.IsName ∨ err = .outputClosed ∨
        ∃ name, err = .mismatch (.duplicateField name) ∧
          2 ≤ (tables.flatMap Relation.qualifiedNames).count name := by
  rw [there.length_eq]
  rcases perform_select_cases reachable lowered there with
    ⟨name, several, twice, failed⟩ | ⟨apart, bound⟩
  · -- the error of the statement is the one that is told
    have told : (e.execute elapsed tree out).result = .error (.mismatch (.duplicateField name)) :=
      Outcome.deliver_of_error failed elapsed out
    constructor
    · refine iff_of_true ⟨_, told⟩ ⟨several, fun nodup => ?_⟩
      have once := List.nodup_iff_count_le_one.1 nodup name
      omega
    · intro err ended
      rw [told] at ended
      exact .inr (.inr ⟨name, (Except.error.inj ended).symm, twice⟩)
  · -- without such a name the query fails over a reference, and the sink over the output
    have errors : ∀ err, (e.execute elapsed tree out).result = .error err →
        err.IsName ∨ err = .outputClosed := by
      intro err ended
      rcases execute_error_cases ended with own | ⟨closed, -⟩
      · exact .inl (bound err own)
      · exact .inr closed
    constructor
    · refine iff_of_false ?_ ?_
      · rintro ⟨cause, ended⟩
        rcases errors _ ended with name | closed
        · exact name
        · cases closed
      · rintro ⟨several, repeated⟩
        rcases apart with one | nodup
        · omega
        · exact repeated nodup
    · intro err ended
      rcases errors err ended with name | closed
      · exact .inl name
      · exact .inr (.inl closed)

/-- A table joined with itself cannot be told apart, and one joined with another table can. -/
theorem select_mismatch_iff_self :
    let e := (ofSettings .standard).calls
      ([.node "CREATE" [.node "TABLE" [.leaf "s"],
          .node "ATTRIBUTES" [.node "ATTRIBUTE" [.leaf "a", .leaf "INT"]]],
        .node "CREATE" [.node "TABLE" [.leaf "t"],
          .node "ATTRIBUTES" [.node "ATTRIBUTE" [.leaf "a", .leaf "STR20"]]]].map
        fun tree => .execute 0 tree Transcript.unlimited)
    let pair (first second : String) : Tree :=
      .node "SELECT" [.node "COLUMNS" [.node "COLUMN" [.leaf "a"]],
        .node "FROM" [.node "TABLE" [.leaf first], .node "TABLE" [.leaf second]]]
    (∃ cause, (e.execute 0 (pair "t" "t") Transcript.unlimited).result
        = .error (.mismatch cause)) ∧
      ¬ ∃ cause, (e.execute 0 (pair "s" "t") Transcript.unlimited).result
        = .error (.mismatch cause) := by
  intro e pair
  have reachable : e.Reachable := reachable_calls _ _
  let query (first second : String) : Query := ⟨⟨["a"], ["a"]⟩, false, [first, second], none⟩
  let s : Relation := .empty "s" ⟨[⟨"a", .int⟩], by decide, by decide⟩
  let t : Relation := .empty "t" ⟨[⟨"a", .text⟩], by decide, by decide⟩
  have found : e.catalog.find? "s" = some s ∧ e.catalog.find? "t" = some t := by decide +kernel
  have same : Statement.ofTree (pair "t" "t") = .ok (.select (query "t" "t")) := by decide +kernel
  have other : Statement.ofTree (pair "s" "t") = .ok (.select (query "s" "t")) := by decide +kernel
  constructor
  · have explained := select_mismatch_iff reachable same (.cons found.2 (.cons found.2 .nil)) 0
      Transcript.unlimited
    exact explained.1.2 ⟨Nat.le_refl 2, by decide +kernel⟩
  · intro mismatch
    obtain ⟨-, repeated⟩ := (select_mismatch_iff reachable other (.cons found.1 (.cons found.2 .nil))
      0 Transcript.unlimited).1.1 mismatch
    exact repeated (by decide +kernel)

end Engine

end RelEngine
