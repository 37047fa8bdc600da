import RelEngine.Proofs.ConditionMeaning
import RelEngine.Proofs.WholeRows

/-!
# References in lists and in conditions

A query over one table takes the table's name off its references twice, and the two places do it
differently. The column list drops whatever stands before the first point, without a look at the
table's name. The condition takes off the table's own name and nothing else. What a reference comes to
is said here for each place apart: the list reads the column `c` for `c` and for every `table.c`
(`Relation.ReadInList`), the condition reads it for `c` and for `t.c` with the name of the table itself
(`Relation.ReadInCondition`).

So the two disagree on one kind of reference alone, a **foreign** one, which puts the name of another
table before a column (`Relation.Foreign`). In a list it reads the column, and in a condition it is a
text of its own.

What a place reads is seen in what comes out of it. A list prints a row as the columns that its
references read, cell by cell (`Relation.PrintedAsRead`), and a condition compares an operand as the
value of its column (`Relation.DenotedBy`). A list that is headed by the wildcard reads no references
at all, it prints the rows whole (`Relation.PrintedWhole`).

* `Renderer.line_key_eq_ok_iff` — the line of a row under the keys of a list;
* `Projection.position_key_iff`, `Condition.position_unqualifiedOperand_iff` — what each place reads;
* `Engine.lists_and_conditions_read_alike` — the references of two queries over one table, the one
  with the reference in its list and the other with it in its condition;
* `Engine.foreign_reference_read_in_list_only` — a foreign reference.
-/

namespace RelEngine

/-! ### What a reference reads -/

/-- **A list of references**: it is not headed by the wildcard, alone or behind a point. -/
def Projection.Unexpanded (p : Projection) : Prop :=
  p.headers.head? ≠ some wildcard ∧ ∀ table, p.headers.head? ≠ some (table ++ "." ++ wildcard)

namespace Relation

/-- **What a column list reads**: the column that the reference names, be it behind a point. -/
def ReadInList (r : Relation) (reference : String) (column : Fin r.schema.size) : Prop :=
  reference = (r.schema.field column).name ∨
    ∃ table, referencePoint ∉ table.toList ∧
      reference = table ++ "." ++ (r.schema.field column).name

/-- **What a condition reads**: the column that the reference names, be it behind the table's name. -/
def ReadInCondition (r : Relation) (reference : String) (column : Fin r.schema.size) : Prop :=
  reference = (r.schema.field column).name ∨
    reference = r.name ++ "." ++ (r.schema.field column).name

/-- **Foreign references**: those that put another name than the table's before one of its columns. -/
def Foreign (r : Relation) (reference : String) : Prop :=
  ∃ table, table ≠ r.name ∧ referencePoint ∉ table.toList ∧
    ∃ column, reference = table ++ "." ++ (r.schema.field column).name

/-- **Rows printed as read.** A row of the table has a line under the list exactly if every reference of
it reads a column, and the line shows these columns. -/
def PrintedAsRead (r : Relation) (renderer : Renderer) (p : Projection) : Prop :=
  ∀ row ∈ r.rows, ∀ line, renderer.line row p.keys = .ok line ↔
    ∃ columns : List (Fin r.schema.size), List.Forall₂ r.ReadInList p.headers columns ∧
      row.Shows renderer (columns.map Fin.val) line

/-- **Rows printed whole.** Every row of the table has a line, which shows all columns in order. -/
def PrintedWhole (r : Relation) (renderer : Renderer) (p : Projection) : Prop :=
  ∀ row ∈ r.rows, ∃ line, renderer.line row p.keys = .ok line ∧
    row.Shows renderer (List.range r.schema.size) line

/-- **What a reference denotes** in a condition, given the operand that lowering makes of it. -/
structure DenotedBy (r : Relation) (reference operand : String) : Prop where
  /-- The operand resolves to the column that the condition reads. -/
  column : ∀ column, r.schema.position operand = .ok column ↔ r.ReadInCondition reference column
  /-- On every row it is compared as the value of that column. -/
  value : ∀ column, r.ReadInCondition reference column → ∀ row ∈ r.rows,
    ∃ v, row.values[column.1]? = some v ∧ Condition.denote row operand = .ok v.print
  /-- Where the condition reads no column, it is compared as the same text on all rows. -/
  text : (∀ column, ¬ r.ReadInCondition reference column) →
    ∃ text, ∀ row ∈ r.rows, Condition.denote row operand = .ok text

variable {r : Relation} {reference : String} {column : Fin r.schema.size}

/-- Where a reference stands with one name before its point, it does not stand with another. -/
theorem Foreign.ne_point (foreign : r.Foreign reference) (plain : referencePoint ∉ r.name.toList)
    (rest : String) : reference ≠ r.name ++ "." ++ rest := by
  obtain ⟨table, other, first, column, rfl⟩ := foreign
  intro same
  -- neither name has a point, so both stand before the first one
  have cut := splitAtFirst_point first (r.schema.field column).name
  rw [same, splitAtFirst_point plain] at cut
  exact other (Prod.mk.inj (Option.some.inj cut)).1.symm

/-- A foreign reference has a point in it, and no stored name does. -/
theorem Foreign.not_mem_names (foreign : r.Foreign reference)
    (plain : ∀ f ∈ r.schema.fields, referencePoint ∉ f.name.toList) :
    reference ∉ r.schema.names := by
  obtain ⟨table, -, -, column, rfl⟩ := foreign
  intro stored
  obtain ⟨f, member, same⟩ := List.mem_map.1 stored
  exact ne_point_of_not_mem (plain f member) _ _ same

/-- A condition reads no column for a foreign reference. -/
theorem Foreign.not_readInCondition (foreign : r.Foreign reference)
    (plain : r.NamesAvoid [referencePoint, qualifier]) (column : Fin r.schema.size) :
    ¬ r.ReadInCondition reference column := by
  have point := plain referencePoint (by simp)
  -- it is neither the name of a column nor begins with the name of the table
  rintro (stored | own)
  · refine foreign.not_mem_names point.2 ?_
    rw [stored]
    exact List.mem_map.2 ⟨_, List.getElem_mem column.2, rfl⟩
  · exact foreign.ne_point point.1 _ own

/-- A reference that is not foreign is read alike. -/
theorem readInList_iff_readInCondition (plain : referencePoint ∉ r.name.toList)
    (native : ¬ r.Foreign reference) :
    r.ReadInList reference column ↔ r.ReadInCondition reference column := by
  refine or_congr_right ⟨?_, fun same => ⟨r.name, plain, same⟩⟩
  rintro ⟨table, first, same⟩
  -- a list reads the column behind any name, which is the table's own unless the reference is
  -- foreign
  by_cases own : table = r.name
  · rw [same, own]
  · exact absurd ⟨table, own, first, column, same⟩ native

end Relation

/-! ### Fetching by what is left of it -/

section Places

variable {r : Relation} {reference : String} {column : Fin r.schema.size}

/-- **The key of a reference** with a single source resolves to what a list reads for it. -/
theorem Projection.position_key_iff (plain : r.NamesAvoid [referencePoint, qualifier]) :
    r.schema.position (key true reference) = .ok column ↔ r.ReadInList reference column := by
  have point := (plain referencePoint (by simp)).2 _ (List.getElem_mem column.2)
  rw [Schema.position_eq_ok_iff_of_plain (plain qualifier (by simp)).2]
  constructor
  · -- the key is what is left behind the first point, or the whole reference if it has none
    intro left
    unfold key at left
    split at left
    · next table rest cut =>
      obtain ⟨first, rfl⟩ := Schema.eq_of_splitAtFirst cut
      rw [if_pos rfl] at left
      exact .inr ⟨table, first, by rw [left]⟩
    · exact .inl left
  · rintro (rfl | ⟨table, first, rfl⟩)
    · exact key_plain point true
    · rw [key_point first, if_pos rfl]

/-- **An operand without the prefix of its table** resolves to what a condition reads for it. -/
theorem Condition.position_unqualifiedOperand_iff (plain : r.NamesAvoid [referencePoint, qualifier]) :
    r.schema.position (unqualifiedOperand r.name reference) = .ok column ↔
      r.ReadInCondition reference column := by
  have point := (plain referencePoint (by simp)).2 _ (List.getElem_mem column.2)
  rw [Schema.position_eq_ok_iff_of_plain (plain qualifier (by simp)).2]
  constructor
  · intro left
    by_cases own : ∃ rest, reference = r.name ++ "." ++ rest
    · obtain ⟨rest, rfl⟩ := own
      rw [unqualifiedOperand_point] at left
      exact .inr (by rw [left])
    · rw [unqualifiedOperand_of_not_point fun rest same => own ⟨rest, same⟩] at left
      exact .inl left
  · rintro (rfl | rfl)
    · exact unqualifiedOperand_of_not_point (ne_point_of_not_mem point _)
    · exact unqualifiedOperand_point r.name _

/-- Equal schemas resolve a reference to the same place. -/
theorem Schema.exists_position_of_eq {s s' : Schema} (same : s = s') {i : Fin s'.size}
    (position : s'.position reference = .ok i) :
    ∃ j : Fin s.size, s.position reference = .ok j ∧ j.1 = i.1 := by
  subst same
  exact ⟨i, position, rfl⟩

end Places

/-! ### Lines of a list -/

section Lines

variable {r : Relation} {row : Row} {reference : String}

/-- **The text under a key** is that of the column which the list reads for the reference. -/
theorem Renderer.fieldText_key_eq_ok_iff (plain : r.NamesAvoid [referencePoint, qualifier])
    (schema : row.schema = r.schema) (typed : row.Typed) {text : String} :
    fieldText row (Projection.key true reference) = .ok text ↔
      ∃ column, r.ReadInList reference column ∧
        ∃ v, row.values[column.1]? = some v ∧ text = v.print := by
  constructor
  · intro fetched
    obtain ⟨i, names, v, value, shown⟩ := exists_of_fieldText fetched
    rw [schema] at names
    refine ⟨⟨i, names.lt_size⟩, (Projection.position_key_iff plain).1 ?_, v, value, shown⟩
    exact Schema.position_eq_ok_iff_names.2 names
  · rintro ⟨column, read, v, value, rfl⟩
    obtain ⟨i, position, place⟩ :=
      Schema.exists_position_of_eq schema ((Projection.position_key_iff plain).2 read)
    rw [← place] at value
    exact fieldText_of_place position value (typed.hasType (Schema.getElem?_field i) value)

/-- **The line of a row** under the keys of a list shows what the list reads for its references, one
cell for each. -/
theorem Renderer.line_key_eq_ok_iff (plain : r.NamesAvoid [referencePoint, qualifier])
    (schema : row.schema = r.schema) (typed : row.Typed) {renderer : Renderer}
    {headers : List String}
    (unexpanded : Projection.isWildcard (headers.map (Projection.key true)) = false)
    {line : String} :
    renderer.line row (headers.map (Projection.key true)) = .ok line ↔
      ∃ columns : List (Fin r.schema.size), List.Forall₂ r.ReadInList headers columns ∧
        row.Shows renderer (columns.map Fin.val) line := by
  -- a line is made of one text for each key, and the texts give the columns and their values
  rw [Renderer.line, references, unexpanded, if_neg Bool.false_ne_true, bind_eq_ok_iff]
  simp only [mapM_eq_ok_iff, List.forall₂_map_left_iff, fieldText_key_eq_ok_iff plain schema typed,
    forall₂_exists_iff, ← eq_map_iff_forall₂]
  constructor
  · rintro ⟨_, ⟨columns, read, values, there, rfl⟩, shown⟩
    exact ⟨columns, read, values, List.forall₂_map_left_iff.2 there, (Except.ok.inj shown).symm⟩
  · rintro ⟨columns, read, values, there, rfl⟩
    exact ⟨_, ⟨columns, read, values, List.forall₂_map_left_iff.1 there, rfl⟩, rfl⟩

end Lines

/-! ### Operands of a condition -/

section Operands

variable {r : Relation} {row : Row} {reference : String}

/-- An operand is compared as the value of the column that the condition reads for it. -/
theorem Relation.exists_denote_of_read (plain : r.NamesAvoid [referencePoint, qualifier])
    (schema : row.schema = r.schema) {column : Fin r.schema.size}
    (read : r.ReadInCondition reference column) :
    ∃ v, row.values[column.1]? = some v ∧
      Condition.denote row (Condition.unqualifiedOperand r.name reference) = .ok v.print := by
  obtain ⟨i, position, place⟩ :=
    Schema.exists_position_of_eq schema ((Condition.position_unqualifiedOperand_iff plain).2 read)
  have value : row.values[i.1]? = some (row.value i) := List.getElem?_eq_getElem _
  rw [← place]
  exact ⟨row.value i, value, Condition.denote_of_place position value⟩

/-- An operand for which the condition reads no column is compared as it is. -/
theorem Relation.denote_of_unread (plain : r.NamesAvoid [referencePoint, qualifier])
    (schema : row.schema = r.schema) (unread : ∀ column, ¬ r.ReadInCondition reference column) :
    Condition.denote row (Condition.unqualifiedOperand r.name reference)
      = .ok (Condition.unqualifiedOperand r.name reference) := by
  have unqualified := (plain qualifier (by simp)).2
  -- what lowering leaves would be read as a column if it were the name of one
  have unstored : Condition.unqualifiedOperand r.name reference ∉ r.schema.names := by
    intro member
    obtain ⟨i, same⟩ := Schema.exists_place_of_mem_names member
    have position := (Schema.position_eq_ok_iff_of_plain unqualified).2 same.symm
    exact unread i ((Condition.position_unqualifiedOperand_iff plain).1 position)
  rw [← schema] at unqualified unstored
  exact Condition.denote_of_unstored unqualified unstored

/-- **A lowered operand denotes** what the condition reads for the reference. -/
theorem Relation.Sound.denotedBy (sound : r.Sound)
    (plain : r.NamesAvoid [referencePoint, qualifier]) (reference : String) :
    r.DenotedBy reference (Condition.unqualifiedOperand r.name reference) where
  column _ := Condition.position_unqualifiedOperand_iff plain
  value _ read row member := exists_denote_of_read plain (sound.row_schema row member) read
  text unread :=
    ⟨_, fun row member => denote_of_unread plain (sound.row_schema row member) unread⟩

/-- A foreign reference is compared as its own text. -/
theorem Relation.Foreign.denote (foreign : r.Foreign reference)
    (plain : r.NamesAvoid [referencePoint, qualifier]) (schema : row.schema = r.schema) :
    Condition.denote row (Condition.unqualifiedOperand r.name reference) = .ok reference := by
  rw [denote_of_unread plain schema (foreign.not_readInCondition plain),
    Condition.unqualifiedOperand_of_not_point (foreign.ne_point (plain referencePoint (by simp)).1)]

/-- A foreign reference is read in a list. -/
theorem Relation.Foreign.exists_readInList (foreign : r.Foreign reference) :
    ∃ column, r.ReadInList reference column := by
  obtain ⟨table, -, first, column, same⟩ := foreign
  exact ⟨column, .inr ⟨table, first, same⟩⟩

end Operands

/-! ### Two queries over one table -/

/-- The operands of a lowered condition are those of the written one, in their places. -/
theorem Condition.operands_unqualified (table : String) (c : Condition) :
    (c.unqualified table).operands = c.operands.map (unqualifiedOperand table) := by
  induction c with
  | equal l r => rfl
  | and a b iha ihb => rw [unqualified, operands, iha, ihb, operands, List.map_append]
  | or a b iha ihb => rw [unqualified, operands, iha, ihb, operands, List.map_append]

namespace Query.LoweredFrom

variable {q : Query} {tree : Tree} {name reference : String}

/-- With a single source, the keys are what is left of the headers behind a point. -/
theorem keys_of_single (h : q.LoweredFrom tree) (single : q.tables = [name]) :
    q.projection.keys = q.projection.headers.map (Projection.key true) := by
  rw [h.keys, single]
  rfl

/-- A list of references stands for itself. -/
theorem isWildcard_keys (h : q.LoweredFrom tree) (single : q.tables = [name])
    (unexpanded : q.projection.Unexpanded) : Projection.isWildcard q.projection.keys = false := by
  rw [h.keys_of_single single, Projection.isWildcard_keys fun _ => unexpanded.2]
  exact Bool.eq_false_iff.2 fun wild => unexpanded.1 (Projection.isWildcard_eq_true_iff.1 wild)

/-- A table is printed as its list of references is read. -/
theorem printedAsRead (h : q.LoweredFrom tree) (single : q.tables = [name]) {r : Relation}
    (sound : r.Sound) (plain : r.NamesAvoid [referencePoint, qualifier])
    (unexpanded : q.projection.Unexpanded) (renderer : Renderer) :
    r.PrintedAsRead renderer q.projection := by
  intro row member line
  have own := h.isWildcard_keys single unexpanded
  rw [h.keys_of_single single] at own ⊢
  exact Renderer.line_key_eq_ok_iff plain (sound.row_schema row member)
    (sound.row_typed row member) own

/-- A table is printed whole under a list that is headed by the wildcard. -/
theorem printedWhole (h : q.LoweredFrom tree) {r : Relation} (sound : r.Sound)
    (wild : q.projection.headers.head? = some Projection.wildcard) (renderer : Renderer) :
    r.PrintedWhole renderer q.projection := by
  intro row member
  have starred : Projection.isWildcard q.projection.keys = true := by
    rw [h.keys]
    exact Projection.isWildcard_map_key _ (Projection.isWildcard_eq_true_iff.2 wild)
  obtain ⟨rest, keys⟩ := List.head?_eq_some_iff.1 (Projection.isWildcard_eq_true_iff.1 starred)
  obtain ⟨line, printed⟩ : ∃ line, renderer.line row q.projection.keys = .ok line := by
    rw [keys]
    exact ⟨_, Renderer.line_wildcard_eq_ok_iff.2 ⟨(sound.row_typed row member).matches, rfl⟩⟩
  refine ⟨line, printed, ?_⟩
  -- the line has places, and these are those of the stored names
  obtain ⟨places, named, shown⟩ := Renderer.exists_of_line printed
  rw [Renderer.references, if_pos starred] at named
  rw [Schema.Names.places_unique named row.schema.names_forall₂_range, sound.row_schema row member]
    at shown
  exact shown

/-- With a single source, the condition has its operands without the prefix of that source. -/
theorem operand_of_single (h : q.LoweredFrom tree) (single : q.tables = [name])
    {written : Condition} (condition : tree.selection = .ok (some written)) {k : Nat}
    (compared : written.operands[k]? = some reference) :
    ∃ lowered, q.selection = some lowered ∧
      lowered.operands[k]? = some (Condition.unqualifiedOperand name reference) := by
  obtain ⟨condition', written', selection⟩ := h.selection
  rw [condition] at written'
  rw [single, ← Except.ok.inj written'] at selection
  refine ⟨written.unqualified name, selection, ?_⟩
  -- lowering does the same to every operand, so each stays in its place
  rw [Condition.operands_unqualified, List.getElem?_map, compared]
  rfl

end Query.LoweredFrom

namespace Engine

/-- **References in lists and in conditions.** A reference stands in the list of one query and in the
condition of another, both over one table whose names hold neither point nor qualifier.

A list of references fetches by a key that resolves to the column which it reads for the reference, and
every row of the table is printed as the columns read for all of its references. A list headed by the
wildcard prints the rows whole, whatever else stands in it. The condition compares an operand that
denotes the column which the condition reads.

These are the same columns unless the reference is foreign. A foreign one is read by the list, and
the condition compares the reference itself on every row. -/
theorem lists_and_conditions_read_alike {e : Engine} (reachable : e.Reachable) {name : String}
    {r : Relation} (there : e.catalog.find? name = some r)
    (plain : r.NamesAvoid [referencePoint, qualifier]) {reference : String}
    {listing : Tree} {q : Query} (lists : Statement.ofTree listing = .ok (.select q))
    (single : q.tables = [name]) {j : Nat} (listed : q.projection.headers[j]? = some reference)
    {restricting : Tree} {q' : Query} (restricts : Statement.ofTree restricting = .ok (.select q'))
    (single' : q'.tables = [name]) {written : Condition}
    (condition : restricting.selection = .ok (some written)) {k : Nat}
    (compared : written.operands[k]? = some reference) :
    (q.projection.Unexpanded → r.PrintedAsRead e.renderer q.projection ∧
      ∃ key, (∀ row ∈ r.rows, (Renderer.references row q.projection.keys)[j]? = some key) ∧
        ∀ column, r.schema.position key = .ok column ↔ r.ReadInList reference column) ∧
    (q.projection.headers.head? = some Projection.wildcard →
      r.PrintedWhole e.renderer q.projection) ∧
    ∃ lowered operand, q'.selection = some lowered ∧ lowered.operands[k]? = some operand ∧
      r.DenotedBy reference operand ∧
      (¬ r.Foreign reference → ∀ column,
        r.ReadInList reference column ↔ r.ReadInCondition reference column) ∧
      (r.Foreign reference → (∃ column, r.ReadInList reference column) ∧
        (∀ column, ¬ r.ReadInCondition reference column) ∧
        ∀ row ∈ r.rows, Condition.denote row operand = .ok reference) := by
  obtain ⟨rfl, sound⟩ := Catalog.sound_iff.1 reachable.catalog_sound name r there
  have origin := Statement.loweredFrom_of_select lists
  obtain ⟨lowered, selection, operand⟩ :=
    (Statement.loweredFrom_of_select restricts).operand_of_single single' condition compared
  refine ⟨fun unexpanded => ⟨origin.printedAsRead single sound plain unexpanded _, ?_⟩,
    fun wild => origin.printedWhole sound wild _, lowered, _, selection, operand,
    sound.denotedBy plain reference, fun native column => ?_, fun foreign => ?_⟩
  · -- the keys of a list of references are looked up as they are
    refine ⟨Projection.key true reference, fun row _ => ?_, fun _ => Projection.position_key_iff plain⟩
    rw [Renderer.references, origin.isWildcard_keys single unexpanded, if_neg Bool.false_ne_true,
      origin.keys_of_single single, List.getElem?_map, listed]
    rfl
  · exact Relation.readInList_iff_readInCondition (plain referencePoint (by simp)).1 native
  · exact ⟨foreign.exists_readInList, foreign.not_readInCondition plain, fun row member =>
      foreign.denote plain (sound.row_schema row member)⟩

/-- Two references in the list of one query and in the condition of another. Both places read the
second column for `t.b`. For `u.b` the list reads it as well, so that it is printed twice, and the
condition compares the text. -/
theorem lists_and_conditions_read_alike_two :
    let e := (ofSettings .standard).calls
      ([.node "CREATE" [.node "TABLE" [.leaf "t"],
          .node "ATTRIBUTES" [.node "ATTRIBUTE" [.leaf "a", .leaf "INT"],
            .node "ATTRIBUTE" [.leaf "b", .leaf "STR20"]]],
        .node "INSERT" [.node "TABLE" [.leaf "t"], .node "VALUES" [.leaf "1", .leaf "x"]]].map
        fun tree => .execute 0 tree Transcript.unlimited)
    let listing : Tree := .node "SELECT" [
      .node "COLUMNS" [.node "COLUMN" [.leaf "t.b"], .node "COLUMN" [.leaf "u.b"]],
      .node "FROM" [.node "TABLE" [.leaf "t"]]]
    let restricting : Tree := .node "SELECT" [.node "COLUMNS" [.node "COLUMN" [.leaf "a"]],
      .node "FROM" [.node "TABLE" [.leaf "t"]],
      .node "WHERE" [.node "OR" [
        .node "=" [.leaf "a", .leaf "t.b"], .node "=" [.leaf "u.b", .leaf "x"]]]]
    let s : Schema := ⟨[⟨"a", .int⟩, ⟨"b", .text⟩], by decide, by decide⟩
    let row : Row := ⟨s, [.int 1, .text "x"], rfl⟩
    e.catalog.find? "t" = some ⟨"t", s, [row]⟩ ∧
      ∃ q q', Statement.ofTree listing = .ok (.select q) ∧
        Statement.ofTree restricting = .ok (.select q') ∧
        e.renderer.line row q.projection.keys = .ok (e.renderer.cells ["x", "x"]) ∧
        (∃ lowered operand, q'.selection = some lowered ∧ lowered.operands[1]? = some operand ∧
          Condition.denote row operand = .ok "x") ∧
        ∃ lowered operand, q'.selection = some lowered ∧ lowered.operands[2]? = some operand ∧
          Condition.denote row operand = .ok "u.b" := by
  intro e listing restricting s row
  let r : Relation := ⟨"t", s, [row]⟩
  let q : Query := ⟨⟨["t.b", "u.b"], ["b", "b"]⟩, false, ["t"], none⟩
  have reachable : e.Reachable := reachable_calls _ _
  have there : e.catalog.find? "t" = some r := by decide +kernel
  have plain : r.NamesAvoid [referencePoint, qualifier] := by
    simp [Relation.NamesAvoid, r, s, referencePoint, qualifier]
  have lists : Statement.ofTree listing = .ok (.select q) := by decide +kernel
  have restricts : Statement.ofTree restricting = .ok (.select ⟨⟨["a"], ["a"]⟩, false, ["t"],
      some (.or (.equal "a" "b") (.equal "u.b" "x"))⟩) := by
    decide +kernel
  have condition : restricting.selection
      = .ok (some (.or (.equal "a" "t.b") (.equal "u.b" "x"))) := by
    decide +kernel
  have member : row ∈ r.rows := List.mem_singleton_self _
  -- the first reference does not end in the wildcard
  have unexpanded : q.projection.Unexpanded := by
    refine ⟨by decide, fun table starred => ?_⟩
    have last : "t.b".toList.getLast? = some '*' := by
      rw [Option.some.inj starred, String.toList_append]
      exact List.getLast?_concat
    exact absurd last (by decide)
  -- the reference to the table itself
  have listed : q.projection.headers[0]? = some "t.b" := rfl
  have compared : ["a", "t.b", "u.b", "x"][1]? = some "t.b" := rfl
  obtain ⟨reads, -, lowered, operand, selection, left, denoted, -⟩ :=
    lists_and_conditions_read_alike reachable there plain lists rfl listed restricts rfl condition
      compared
  -- the foreign one
  have listed' : q.projection.headers[1]? = some "u.b" := rfl
  have compared' : ["a", "t.b", "u.b", "x"][2]? = some "u.b" := rfl
  have foreign : r.Foreign "u.b" := ⟨"u", by decide, by decide, 1, by decide⟩
  obtain ⟨-, -, lowered', operand', selection', left', -, -, apart⟩ :=
    lists_and_conditions_read_alike reachable there plain lists rfl listed' restricts rfl condition
      compared'
  refine ⟨there, q, _, lists, restricts, ?_, ⟨lowered, operand, selection, left, ?_⟩,
    lowered', operand', selection', left', (apart foreign).2.2 row member⟩
  · -- both are read as the second column
    refine ((reads unexpanded).1 row member _).2 ⟨[1, 1], ?_, [.text "x", .text "x"], ?_, ?_⟩
    · exact .cons (.inr ⟨"t", by decide, by decide⟩) (.cons (.inr ⟨"u", by decide, by decide⟩) .nil)
    · decide
    · decide +kernel
  · obtain ⟨v, value, shown⟩ := denoted.value 1 (.inr (by decide)) row member
    obtain rfl : Value.text "x" = v := Option.some.inj value
    exact shown

/-- **A foreign reference is read in a list only.** The table `t` holds the number 1 in its column
`a`. The list with `u.a` fetches by `a` and prints it. The condition that compares `u.a` with 1 keeps
no row, as the operand `u.a` resolves to no column. -/
theorem foreign_reference_read_in_list_only :
    let e := (ofSettings .standard).calls
      ([.node "CREATE" [.node "TABLE" [.leaf "t"],
          .node "ATTRIBUTES" [.node "ATTRIBUTE" [.leaf "a", .leaf "INT"]]],
        .node "INSERT" [.node "TABLE" [.leaf "t"], .node "VALUES" [.leaf "1"]]].map
        fun tree => .execute 0 tree Transcript.unlimited)
    let listing : Tree := .node "SELECT" [.node "COLUMNS" [.node "COLUMN" [.leaf "u.a"]],
      .node "FROM" [.node "TABLE" [.leaf "t"]]]
    let restricting : Tree := .node "SELECT" [.node "COLUMNS" [.node "COLUMN" [.leaf "*"]],
      .node "FROM" [.node "TABLE" [.leaf "t"]],
      .node "WHERE" [.node "=" [.leaf "u.a", .leaf "1"]]]
    let s : Schema := ⟨[⟨"a", .int⟩], by decide, by decide⟩
    let r : Relation := ⟨"t", s, [⟨s, [.int 1], rfl⟩]⟩
    e.catalog.find? "t" = some r ∧ r.NamesAvoid [referencePoint, qualifier] ∧
      Statement.ofTree listing = .ok (.select ⟨⟨["u.a"], ["a"]⟩, false, ["t"], none⟩) ∧
      restricting.selection = .ok (some (.equal "u.a" "1")) ∧
      Statement.ofTree restricting
        = .ok (.select ⟨⟨["*"], ["*"]⟩, false, ["t"], some (.equal "u.a" "1")⟩) ∧
      r.schema.position "a" = .ok 0 ∧ r.schema.position "u.a" = .error (.columnNotFound "u.a") ∧
      (e.perform listing).result
        = .ok ["Rows returned: 1", "u.a               ", "1                 "] ∧
      (e.perform restricting).result = .ok [] := by
  intro e listing restricting s r
  refine ⟨by decide +kernel, ?_, by decide +kernel, by decide +kernel, by decide +kernel,
    by decide +kernel, by decide +kernel, by decide +kernel, by decide +kernel⟩
  simp [Relation.NamesAvoid, r, s, referencePoint, qualifier]

end Engine

end RelEngine
