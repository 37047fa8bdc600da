import Mathlib.Data.Multiset.Bind
import RelEngine.Proofs.NamedValues
import RelEngine.Proofs.QueryMismatches

/-!
# The order of the sources

A query over several tables is compared with one that lists the same tables in another order. The
nested loops of the other query come to the joined rows in another order, and each joined row has
its values in another order, under a schema with the same fields in that order. It is shown that
nothing else differs.

What the nested loops come to, up to both orders, is the multiset of all joined rows as multisets of
named values (`blends`). A table takes part in it by a choice of one of its rows, and choices from
different tables commute, so the order of the tables has no part in it (`blends_perm`). It follows
that the joined rows of the one query have *counterparts* among those of the other, one each, with
the same named values (`exists_counterparts`). Conditions see named values only, so they are decided
alike on a row and its counterpart, and what the condition keeps are counterparts again
(`Counterparts.kept`).

* `Query.execute_permuted` — the two queries fail both, or they give the same rows, up to both
  orders; and conditions do not tell a row from its rearrangement.
-/

namespace RelEngine

/-! ### Joined rows in no order -/

/-- The named values of a row, in no order. -/
def Row.blend (row : Row) : Multiset (String × Value) := row.named

/-- What a row contributes to a joined row: each value under the qualified name of its field. -/
def Relation.contribution (r : Relation) (row : Row) : Multiset (String × Value) :=
  r.qualifiedNames.zip row.values

/-- **The joined rows of some tables** as named values, neither the rows nor the values in an
order. -/
def blends : List Relation → Multiset (Multiset (String × Value))
  | [] => {0}
  | r :: tables => (r.rows : Multiset Row).bind fun row =>
      (blends tables).map fun rest => r.contribution row + rest

/-- **Choices from different tables commute.** -/
theorem blends_perm {tables tables' : List Relation} (permuted : tables'.Perm tables) :
    blends tables' = blends tables := by
  induction permuted with
  | nil => rfl
  | cons r _ ih => rw [blends, blends, ih]
  | swap r s tables =>
    -- a row of each, in either order, and the contributions of both before the rest
    simp only [blends, Multiset.map_bind, Multiset.map_map, Function.comp_def]
    rw [Multiset.bind_bind]
    simp only [add_left_comm]
  | trans _ _ ih ih' => exact ih.trans ih'

/-- The qualified names of some tables beside the values of a choice of their rows. -/
def choiceBlend (tables : List Relation) (parts : List Row) : Multiset (String × Value) :=
  (tables.flatMap Relation.qualifiedNames).zip (parts.flatMap Row.values)

/-- A choice contributes what its parts contribute. -/
theorem choiceBlend_cons {r : Relation} {row : Row} (fits : row.values.length = r.schema.size)
    (tables : List Relation) (parts : List Row) :
    choiceBlend (r :: tables) (row :: parts) = r.contribution row + choiceBlend tables parts := by
  -- the names of the table end where the values of the row do
  have length : r.qualifiedNames.length = row.values.length := by
    rw [fits, Relation.qualifiedNames, Schema.names, List.length_map, List.length_map]
  rw [choiceBlend, List.flatMap_cons, List.flatMap_cons, List.zip_append length,
    ← Multiset.coe_add]
  rfl

/-- All choices together contribute the joined rows. -/
theorem map_choiceBlend {tables : List Relation} (fits : ∀ r ∈ tables, r.Fits) :
    ↑((tuples tables).map (choiceBlend tables)) = blends tables := by
  induction tables with
  | nil => rfl
  | cons r tables ih =>
    have ih := ih fun s member => fits s (List.mem_cons_of_mem _ member)
    -- the first row is taken first, then the others, as the joined rows are
    calc (↑((tuples (r :: tables)).map (choiceBlend (r :: tables))) : Multiset _)
        = (r.rows : Multiset Row).bind fun row =>
            ↑((tuples tables).map fun parts => choiceBlend (r :: tables) (row :: parts)) := by
          rw [tuples_cons, List.map_flatMap, ← Multiset.coe_bind]
          simp only [List.map_map, Function.comp_def]
      _ = (r.rows : Multiset Row).bind fun row =>
            ↑((tuples tables).map fun parts => r.contribution row + choiceBlend tables parts) := by
          refine Multiset.bind_congr fun row member => ?_
          simp only [choiceBlend_cons (fits r List.mem_cons_self row member)]
      _ = blends (r :: tables) := by
          rw [blends, ← ih]
          simp only [Multiset.map_coe, List.map_map, Function.comp_def]

/-- The rows that a query over several tables starts from are the joined rows of the tables. -/
theorem exists_sourceRows_blends {tables : List Relation} (sound : ∀ r ∈ tables, r.Sound)
    (several : 2 ≤ tables.length) {schema : Schema}
    (qualifies : Schema.qualified (tables.map fun r => (r.name, r.schema)) = .ok schema) :
    ∃ rows, Query.sourceRows tables = .ok rows ∧ (∀ row ∈ rows, row.schema = schema) ∧
      ↑(rows.map Row.blend) = blends tables := by
  have schemaOf : Query.sourceSchema tables = .ok schema := by
    match tables, several with
    | _ :: _ :: _, _ => exact qualifies
  -- the fields of the schema are those that the contributions are named by
  have names : schema.names = tables.flatMap Relation.qualifiedNames := by
    rw [← Schema.names_qualifiedFields, ← Schema.ofFields_eq_ok_iff.1 qualifies]
    rfl
  obtain ⟨rows, source, joins⟩ := Query.exists_sourceRows sound schemaOf
  refine ⟨rows, source, fun row member => ?_, ?_⟩
  · obtain ⟨parts, -, joined⟩ := exists_of_mem_right joins member
    exact joined.1
  · have same : rows.map Row.blend = (tuples tables).map (choiceBlend tables) := by
      rw [← List.forall₂_eq_eq_eq, List.forall₂_map_left_iff, List.forall₂_map_right_iff]
      refine joins.flip.imp ?_
      rintro row parts ⟨under, values⟩
      rw [Row.blend, Row.named, under, values, names, choiceBlend]
    rw [same]
    exact map_choiceBlend fun r member => (sound r member).fits

/-! ### Counterparts -/

/-- **A counterpart** of a row under the schema has the same named values. -/
def Row.Counterpart (schema : Schema) (row' row : Row) : Prop :=
  row.schema = schema ∧ row'.named.Perm row.named

/-- The rows of the one list are, in some order, counterparts of those of the other. -/
def Counterparts (schema : Schema) (rows' rows : List Row) : Prop :=
  ∃ ordered, List.Forall₂ (Row.Counterpart schema) rows' ordered ∧ ordered.Perm rows

/-- Rows with the same named values, taken together, can be put beside one another. -/
theorem exists_counterparts {schema : Schema} {rows rows' : List Row}
    (alike : ∀ row ∈ rows, row.schema = schema)
    (same : (rows'.map Row.blend).Perm (rows.map Row.blend)) :
    Counterparts schema rows' rows := by
  -- each row is put beside its own values, and these are permuted
  have each : List.Forall₂ (fun values (row : Row) => row.schema = schema ∧ values = row.blend)
      (rows.map Row.blend) rows := by
    rw [List.forall₂_map_left_iff, List.forall₂_same]
    exact fun row member => ⟨alike row member, rfl⟩
  obtain ⟨ordered, aligned, permuted⟩ := List.perm_comp_forall₂ same each
  refine ⟨ordered, (List.forall₂_map_left_iff.1 aligned).imp ?_, permuted⟩
  rintro row' row ⟨under, values⟩
  exact ⟨under, Multiset.coe_eq_coe.1 values⟩

namespace Counterparts

variable {schema : Schema} {rows rows' : List Row}

/-- To each row of the second list there is one of the first with the same named values. -/
theorem exists_left (h : Counterparts schema rows' rows) {row : Row} (member : row ∈ rows) :
    ∃ row' ∈ rows', row'.named.Perm row.named := by
  obtain ⟨ordered, aligned, permuted⟩ := h
  obtain ⟨row', member', -, same⟩ := exists_of_mem_right aligned (permuted.mem_iff.2 member)
  exact ⟨row', member', same⟩

/-- To each row of the first list there is one of the second with the same named values. -/
theorem exists_right (h : Counterparts schema rows' rows) {row' : Row} (member : row' ∈ rows') :
    ∃ row ∈ rows, row'.named.Perm row.named := by
  obtain ⟨ordered, aligned, permuted⟩ := h
  obtain ⟨row, member', -, same⟩ := exists_of_mem_right aligned.flip member
  exact ⟨row, permuted.mem_iff.1 member', same⟩

/-- What does not tell counterparts from one another picks counterparts. -/
theorem filter (h : Counterparts schema rows' rows) {p : Row → Bool}
    (alike : ∀ {row' row : Row}, row'.named.Perm row.named → p row' = p row) :
    Counterparts schema (rows'.filter p) (rows.filter p) := by
  obtain ⟨ordered, aligned, permuted⟩ := h
  refine ⟨ordered.filter p, List.rel_filter ?_ aligned, permuted.filter p⟩
  rintro row' row ⟨-, same⟩
  show p row' = true ↔ p row = true
  rw [alike same]

/-- Counterparts are the same rows once their values are rearranged. -/
theorem arranged_perm (h : Counterparts schema rows' rows) :
    (rows'.map fun row' => row'.arranged schema.names).Perm (rows.map Row.values) := by
  obtain ⟨ordered, aligned, permuted⟩ := h
  have rearranged : rows'.map (fun row' => row'.arranged schema.names)
      = ordered.map Row.values := by
    rw [← List.forall₂_eq_eq_eq, List.forall₂_map_left_iff, List.forall₂_map_right_iff]
    refine aligned.imp ?_
    rintro row' row ⟨rfl, same⟩
    exact Row.arranged_of_perm same
  rw [rearranged]
  exact permuted.map Row.values

/-- **Conditions keep counterparts**, or fail on both sides. -/
theorem kept (h : Counterparts schema rows' rows) (selection : Option Condition) :
    (∃ err err', keepRows (Condition.admits selection) rows = .error err ∧
        keepRows (Condition.admits selection) rows' = .error err') ∨
      ∃ kept kept', keepRows (Condition.admits selection) rows = .ok kept ∧
        keepRows (Condition.admits selection) rows' = .ok kept' ∧
        Counterparts schema kept' kept := by
  -- a condition sees the named values of a row, so it decides counterparts alike
  have alike : ∀ {row' row : Row}, row'.named.Perm row.named →
      Condition.admits selection row' = Condition.admits selection row :=
    fun same => Condition.admits_eq_of_perm same selection
  rcases keepRows_cases (Condition.admits selection) rows with
    ⟨⟨row, member, err, fails⟩, failed⟩ | ⟨decided, kept⟩ <;>
  rcases keepRows_cases (Condition.admits selection) rows' with
    ⟨⟨row', member', err', fails'⟩, failed'⟩ | ⟨decided', kept'⟩
  · obtain ⟨err, failed⟩ := failed
    obtain ⟨err', failed'⟩ := failed'
    exact .inl ⟨err, err', failed, failed'⟩
  · -- it would fail on the counterpart, too
    obtain ⟨row', member', same⟩ := h.exists_left member
    obtain ⟨b, decided'⟩ := decided' row' member'
    rw [alike same, fails] at decided'
    cases decided'
  · obtain ⟨row, member, same⟩ := h.exists_right member'
    obtain ⟨b, decided⟩ := decided row member
    rw [← alike same, fails'] at decided
    cases decided
  · exact .inr ⟨_, _, kept, kept', h.filter fun same => by rw [alike same]⟩

end Counterparts

/-! ### Permuted queries -/

namespace Query

/-- **The order of the sources does not matter.** Two queries without `DISTINCT` have the same
condition and list the same tables, in different orders, and the qualified schema of the one list
forms. Then that of the other forms, with the same fields in another order. Either both queries fail,
or both give rows, and these are the same up to their order once the values of each row are taken in
the order of the first schema. No condition tells a row from its rearrangement, be it by a truth
value or by an error. -/
theorem execute_permuted {e : Engine} (reachable : e.Reachable) (m : Memory) {q q' : Query}
    (plain : q.distinct = false) (plain' : q'.distinct = false)
    (selection : q'.selection = q.selection) (several : 2 ≤ q.tables.length)
    (permuted : q'.tables.Perm q.tables) {tables : List Relation}
    (there : List.Forall₂ (fun name r => e.catalog.find? name = some r) q.tables tables)
    {schema : Schema}
    (qualifies : Schema.qualified (tables.map fun r => (r.name, r.schema)) = .ok schema) :
    ∃ tables' schema', q'.relations e.catalog = .ok tables' ∧ tables'.Perm tables ∧
      Schema.qualified (tables'.map fun r => (r.name, r.schema)) = .ok schema' ∧
      schema'.fields.Perm schema.fields ∧
      ((∃ err err', (q.execute e.catalog m).rows = .error err ∧
          (q'.execute e.catalog m).rows = .error err') ∨
        ∃ rows rows', (q.execute e.catalog m).rows = .ok rows ∧
          (q'.execute e.catalog m).rows = .ok rows' ∧
          (rows'.map fun row' => row'.arranged schema.names).Perm (rows.map Row.values)) ∧
      ∀ row row' : Row, row.schema = schema → row'.schema = schema' →
        row'.arranged schema.names = row.values → ∀ c : Condition, c.holds row' = c.holds row := by
  -- the tables are found in the other order, and their qualified schema forms as well
  obtain ⟨tables', there', reordered⟩ := List.perm_comp_forall₂ permuted there
  obtain ⟨schema', qualifies', fields⟩ : ∃ schema',
      Schema.qualified (tables'.map fun r => (r.name, r.schema)) = .ok schema' ∧
        schema'.fields.Perm schema.fields := by
    -- the fields are those of the first schema in another order, so their names differ as well
    set all := (tables'.map fun r => (r.name, r.schema)).flatMap fun p =>
      Schema.qualifiedFields p.1 p.2
    have fields : all.Perm schema.fields := by
      rw [Schema.ofFields_eq_ok_iff.1 qualifies]
      exact (reordered.map _).flatMap_right _
    have nonempty : all ≠ [] := fun none => by
      rw [none] at fields
      exact schema.fields_ne_nil fields.nil_eq.symm
    have nodup : (all.map Field.name).Nodup := (fields.map Field.name).nodup_iff.2 schema.names_nodup
    exact ⟨⟨all, nonempty, nodup⟩, Schema.ofFields_eq_ok_iff.2 rfl, fields⟩
  refine ⟨tables', schema', relations_eq_ok_iff.2 there', reordered, qualifies', fields, ?_, ?_⟩
  · -- the rows they start from are counterparts, and so are those that the condition keeps
    have length := there.length_eq
    have length' := there'.length_eq
    rw [permuted.length_eq] at length'
    obtain ⟨rows, source, alike, blended⟩ := exists_sourceRows_blends
      (reachable.sound_of_found there).2 (by omega) qualifies
    obtain ⟨rows', source', -, blended'⟩ := exists_sourceRows_blends
      (reachable.sound_of_found there').2 (by omega) qualifies'
    have same := Multiset.coe_eq_coe.1 ((blended'.trans (blends_perm reordered)).trans blended.symm)
    rw [execute_rows m plain (relations_eq_ok_iff.2 there) source,
      execute_rows m plain' (relations_eq_ok_iff.2 there') source', selection]
    rcases (exists_counterparts alike same).kept q.selection with
      failed | ⟨kept, kept', keeps, keeps', counterparts⟩
    · exact .inl failed
    · exact .inr ⟨kept, kept', keeps, keeps', counterparts.arranged_perm⟩
  · rintro row row' rfl rfl rearranged c
    have names : row'.schema.names.Perm row.schema.names := fields.map Field.name
    exact Condition.holds_eq_of_perm ((Row.arranged_eq_values_iff names).1 rearranged) c

/-- Two tables with a column of the same name, and a condition that compares its values. Either
order gives three of the four joined rows. -/
theorem execute_permuted_pair :
    let e := (Engine.ofSettings .standard).calls
      ([.node "CREATE" [.node "TABLE" [.leaf "s"],
          .node "ATTRIBUTES" [.node "ATTRIBUTE" [.leaf "a", .leaf "INT"]]],
        .node "CREATE" [.node "TABLE" [.leaf "t"],
          .node "ATTRIBUTES" [.node "ATTRIBUTE" [.leaf "a", .leaf "STR20"]]],
        .node "INSERT" [.node "TABLE" [.leaf "s"], .node "VALUES" [.leaf "1"]],
        .node "INSERT" [.node "TABLE" [.leaf "s"], .node "VALUES" [.leaf "2"]],
        .node "INSERT" [.node "TABLE" [.leaf "t"], .node "VALUES" [.leaf "2"]],
        .node "INSERT" [.node "TABLE" [.leaf "t"], .node "VALUES" [.leaf "x"]]].map
        fun tree => .execute 0 tree Transcript.unlimited)
    let query (names : List String) : Query := ⟨⟨["*"], ["*"]⟩, false, names,
      some (.or (.equal "s.a" "t.a") (.equal "t.a" "x"))⟩
    ∃ rows', ((query ["t", "s"]).execute e.catalog e.memory).rows = .ok rows' ∧
      (rows'.map fun row' => row'.arranged ["s#a", "t#a"]).Perm
        [[.int 1, .text "x"], [.int 2, .text "2"], [.int 2, .text "x"]] := by
  intro e query
  let a : Schema := ⟨[⟨"a", .int⟩], by decide, by decide⟩
  let b : Schema := ⟨[⟨"a", .text⟩], by decide, by decide⟩
  let tables : List Relation := [⟨"s", a, [⟨a, [.int 1], rfl⟩, ⟨a, [.int 2], rfl⟩]⟩,
    ⟨"t", b, [⟨b, [.text "2"], rfl⟩, ⟨b, [.text "x"], rfl⟩]⟩]
  let schema : Schema := ⟨[⟨"s#a", .int⟩, ⟨"t#a", .text⟩], by decide, by decide⟩
  have reachable : e.Reachable := Engine.reachable_calls _ _
  have there : (query ["s", "t"]).relations e.catalog = .ok tables := by decide +kernel
  have qualifies : Schema.qualified (tables.map fun r => (r.name, r.schema)) = .ok schema := by
    decide +kernel
  have ended : ((query ["s", "t"]).execute e.catalog e.memory).rows
      = .ok [⟨schema, [.int 1, .text "x"], rfl⟩, ⟨schema, [.int 2, .text "2"], rfl⟩,
        ⟨schema, [.int 2, .text "x"], rfl⟩] := by
    decide +kernel
  have plain : ∀ names, (query names).distinct = false := fun _ => rfl
  -- the two tables change places
  have permuted : (query ["t", "s"]).tables.Perm (query ["s", "t"]).tables := .swap "s" "t" []
  obtain ⟨tables', schema', -, -, -, -, ⟨err, err', failed, -⟩ | ⟨rows, rows', given, given', same⟩,
      -⟩ :=
    execute_permuted reachable e.memory (plain ["s", "t"]) (plain ["t", "s"]) rfl (Nat.le_refl 2)
      permuted (relations_eq_ok_iff.1 there) qualifies
  · rw [ended] at failed
    cases failed
  · rw [ended] at given
    obtain rfl := Except.ok.inj given
    exact ⟨rows', given', same⟩

end Query

end RelEngine
