import RelEngine.Proofs.QueryMismatches

/-!
# Rows printed whole

A column list headed by the wildcard asks for the row as it is. The printer does not go along the
values for that. It takes the stored names, looks each of them up like any reference, and prints
what stands at the place that it finds, if the type declared there is of the value's kind.

Names are free. A field may be called `t.a` beside a field `t#a`, or `a` beside both, so one name
can stand in the way of the other as a reference with a point or as a bare column part. What keeps
every name at its own field is the order of the rules: a stored name is looked for first, and the
names of a schema differ (`Schema.position_of_stored`). So the lookups come back with the values of
the row, in the order of the fields (`Renderer.fieldText_stored`).

* `Renderer.line_wildcard_eq_ok_iff` — the row is printed exactly if its values are of the declared
  kinds, and then as their cells, one behind the other;
* `Renderer.wildcard_prints_whole` — so for every accepted schema, and for the rows that the queries
  of an engine start from, stored and joined ones.
-/

namespace RelEngine

/-! ### Kinds of values -/

/-- The type of the values of one kind, however long a text is. -/
def Value.kind : Value → ColumnType
  | int _ => .int
  | text _ => .text

/-- **Matching rows**: every value is of the kind that its field declares. -/
def Row.Matches (row : Row) : Prop :=
  ∀ i : Fin row.schema.size, (row.value i).kind = (row.schema.field i).type

instance (row : Row) : Decidable row.Matches := by
  unfold Row.Matches
  infer_instance

/-- A value of a type is of its kind. -/
theorem Value.HasType.kind {v : Value} {type : ColumnType} (h : v.HasType type) :
    v.kind = type := by
  cases v <;> cases type
  · rfl
  · exact h.elim
  · exact h.elim
  · rfl

/-- Typed rows match; the bound on the length of texts is not asked for. -/
theorem Row.Typed.matches {row : Row} (h : row.Typed) : row.Matches := fun i => (h i).kind

/-! ### Lines of whole rows -/

namespace Renderer

variable {row : Row}

/-- A value is shown if it is of the declared kind, and then as it is printed. -/
theorem shownValue_eq_ok_iff {reference text : String} {type : ColumnType} {v : Value} :
    shownValue reference type v = .ok text ↔ v.kind = type ∧ text = v.print := by
  cases v <;> cases type <;> simp [shownValue, Value.kind, eq_comm]

/-- A stored name fetches the value of its own field, whatever the name looks like. -/
theorem fieldText_stored (row : Row) (i : Fin row.schema.size) :
    fieldText row (row.schema.field i).name
      = shownValue (row.schema.field i).name (row.schema.field i).type (row.value i) := by
  rw [fieldText, Schema.typeOf, Row.get, row.schema.position_of_stored i]
  rfl

/-- The texts of all columns are those of the row's values, if these match. -/
theorem fieldTexts_stored_eq_ok_iff {texts : List String} :
    row.schema.names.mapM (fieldText row) = .ok texts ↔
      row.Matches ∧ texts = row.values.map Value.print := by
  -- values and fields are both followed along the places of the schema
  have printed : row.values.map Value.print
      = (List.finRange row.schema.size).map fun i => (row.value i).print := by
    rw [row.values_eq_map_value, List.map_map]
    rfl
  have matching : row.Matches ↔ ∀ i ∈ List.finRange row.schema.size,
      (row.value i).kind = (row.schema.field i).type :=
    ⟨fun h i _ => h i, fun h i => h i (List.mem_finRange i)⟩
  -- place by place, a name fetches a text if the value matches, and it is that of the value
  rw [mapM_eq_ok_iff, row.schema.names_eq_map_field, List.forall₂_map_left_iff, printed, matching]
  simp only [fieldText_stored, shownValue_eq_ok_iff]
  rw [List.forall₂_and_left]
  exact and_congr_right fun _ => eq_map_iff_forall₂.symm

/-- **A whole row is printed** exactly if its values match, and then as their cells. -/
theorem line_wildcard_eq_ok_iff {r : Renderer} {rest : List String} {line : String} :
    r.line row (Projection.wildcard :: rest) = .ok line ↔
      row.Matches ∧ line = String.join (row.values.map fun v => r.cell v.print) := by
  have cells : r.cells (row.values.map Value.print)
      = String.join (row.values.map fun v => r.cell v.print) := by
    rw [Renderer.cells, List.map_map]
    rfl
  -- the wildcard stands for the stored names, whatever else is in the list
  have whole : references row (Projection.wildcard :: rest) = row.schema.names :=
    if_pos (Projection.isWildcard_eq_true_iff.2 rfl)
  rw [Renderer.line, whole, bind_eq_ok_iff, ← cells]
  constructor
  · rintro ⟨texts, fetched, printed⟩
    obtain ⟨matching, rfl⟩ := fieldTexts_stored_eq_ok_iff.1 fetched
    exact ⟨matching, (Except.ok.inj printed).symm⟩
  · rintro ⟨matching, rfl⟩
    exact ⟨_, fieldTexts_stored_eq_ok_iff.2 ⟨matching, rfl⟩, rfl⟩

/-- So a result of matching rows is printed, if all columns are asked for. -/
theorem exists_table_wildcard {rows : List Row} (matching : ∀ row ∈ rows, row.Matches)
    (r : Renderer) {p : Projection} (wild : Projection.isWildcard p.keys = true) :
    ∃ lines, r.table rows p = .ok lines := by
  obtain ⟨rest, keys⟩ := List.head?_eq_some_iff.1 (Projection.isWildcard_eq_true_iff.1 wild)
  have each : ∀ row ∈ rows, ∃ line, r.line row p.keys = .ok line ∧ True := by
    intro row member
    rw [keys]
    exact ⟨_, line_wildcard_eq_ok_iff.2 ⟨matching row member, rfl⟩, trivial⟩
  obtain ⟨lines, printed, -⟩ := exists_mapM_forall₂ each
  cases rows with
  | nil => exact ⟨[], rfl⟩
  | cons sample others => exact ⟨_, by rw [table, printed, ok_bind]⟩

/-- **Rows are printed whole.** Under a column list headed by the wildcard, and whatever the names
of the fields are, a row whose values match its schema is printed as the cells of its values, one
for each field and in the order of the fields. All rows that a query of a reachable engine starts
from are printed so, be they stored in its one table or joined from several. -/
theorem wildcard_prints_whole (r : Renderer) (rest : List String) :
    (∀ (fields : List Field) (schema : Schema), Schema.ofFields fields = .ok schema →
      ∀ row : Row, row.schema = schema → row.Matches →
        row.values.length = fields.length ∧
        r.line row (Projection.wildcard :: rest)
          = .ok (String.join (row.values.map fun v => r.cell v.print))) ∧
    (∀ e : Engine, e.Reachable → ∀ (names : List String) (tables : List Relation),
      List.Forall₂ (fun name r => e.catalog.find? name = some r) names tables →
      ∀ source, Query.sourceRows tables = .ok source → ∀ row ∈ source,
        r.line row (Projection.wildcard :: rest)
          = .ok (String.join (row.values.map fun v => r.cell v.print))) := by
  constructor
  · rintro fields _ accepted row rfl matching
    refine ⟨?_, line_wildcard_eq_ok_iff.2 ⟨matching, rfl⟩⟩
    -- a row has a value for each field, and the schema has the fields it was made from
    calc row.values.length = row.schema.fields.length := row.arity
      _ = fields.length := by rw [Schema.ofFields_eq_ok_iff.1 accepted]
  · intro e reachable names tables there source start row member
    obtain ⟨-, sound⟩ := reachable.sound_of_found there
    have some : tables ≠ [] := by
      rintro rfl
      rw [← Except.ok.inj start] at member
      cases member
    -- the rows that a query starts from are typed
    obtain ⟨schema, schemaOf⟩ := Query.exists_sourceSchema_of_rows some start
    obtain ⟨source', start', typed, -⟩ := Query.exists_typed_source sound schemaOf
    rw [start] at start'
    obtain rfl := Except.ok.inj start'
    exact line_wildcard_eq_ok_iff.2 ⟨(typed row member).matches, rfl⟩

/-- Fields whose names could stand for each other, and a joined row of two tables with such fields.
Every value is printed in its own cell of three characters. -/
theorem wildcard_prints_whole_awkward :
    let r : Renderer := ⟨3, .truncate⟩
    let fields : List Field :=
      [⟨"t#a", .int⟩, ⟨"t.a", .text⟩, ⟨"a", .int⟩, ⟨"*", .text⟩, ⟨"", .int⟩]
    let schema : Schema := ⟨fields, by decide, by decide⟩
    let row : Row := ⟨schema, [.int 1, .text "long", .int 3, .text "", .int (-5)], rfl⟩
    let e := (Engine.ofSettings .standard).calls
      ([.node "CREATE" [.node "TABLE" [.leaf "t"],
          .node "ATTRIBUTES" [.node "ATTRIBUTE" [.leaf "u.a", .leaf "INT"],
            .node "ATTRIBUTE" [.leaf "*", .leaf "STR20"]]],
        .node "CREATE" [.node "TABLE" [.leaf "u"],
          .node "ATTRIBUTES" [.node "ATTRIBUTE" [.leaf "a", .leaf "INT"]]],
        .node "INSERT" [.node "TABLE" [.leaf "t"], .node "VALUES" [.leaf "1", .leaf "x"]],
        .node "INSERT" [.node "TABLE" [.leaf "u"], .node "VALUES" [.leaf "2"]]].map
        fun tree => .execute 0 tree Transcript.unlimited)
    let joined : Row := ⟨⟨[⟨"t#u.a", .int⟩, ⟨"t#*", .text⟩, ⟨"u#a", .int⟩], by decide, by decide⟩,
      [.int 1, .text "x", .int 2], rfl⟩
    Schema.ofFields fields = .ok schema ∧ row.Matches ∧
      r.line row ["*", "a"] = .ok "1  lon3     -5 " ∧
      r.line joined ["*"] = .ok "1  x  2  " ∧
      ∃ tables, List.Forall₂ (fun name r => e.catalog.find? name = some r) ["t", "u"] tables ∧
        Query.sourceRows tables = .ok [joined] := by
  intro r fields schema row e joined
  have accepted : Schema.ofFields fields = .ok schema := by decide +kernel
  have matching : row.Matches := by decide +kernel
  have whole := (wildcard_prints_whole r ["a"]).1 fields schema accepted row rfl matching
  -- the two tables as they are stored, and their one joined row
  let s : Schema := ⟨[⟨"u.a", .int⟩, ⟨"*", .text⟩], by decide, by decide⟩
  let t : Relation := ⟨"t", s, [⟨s, [.int 1, .text "x"], rfl⟩]⟩
  let s' : Schema := ⟨[⟨"a", .int⟩], by decide, by decide⟩
  let u : Relation := ⟨"u", s', [⟨s', [.int 2], rfl⟩]⟩
  have there : List.Forall₂ (fun name r => e.catalog.find? name = some r) ["t", "u"] [t, u] := by
    decide +kernel
  have start : Query.sourceRows [t, u] = .ok [joined] := by decide +kernel
  have reachable : e.Reachable := Engine.reachable_calls _ _
  have both := (wildcard_prints_whole r []).2 e reachable _ _ there _ start joined
    (List.mem_singleton_self joined)
  refine ⟨accepted, matching, whole.2.trans ?_, both.trans ?_, _, there, start⟩ <;> decide +kernel

end Renderer

end RelEngine
