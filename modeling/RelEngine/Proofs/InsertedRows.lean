import RelEngine.Proofs.Numerals
import RelEngine.Proofs.PickedRows

/-!
# Looking for an inserted row

An insertion gives a literal for a column, and a query right afterwards asks for the rows in which
this column equals the same literal. The two do not mean the same by it. The insertion reads the
literal for the type of the column, and what it stores is a value. The query compares texts: the
value of the column, printed, and the literal as it is written.

So the query finds the inserted row iff the literal is the printed form of the value that it is read
as. A text is always its own printed form, and a number is printed in one of its spellings
(`Decimal.IsPlain`). Besides, the query can give no row with another value, since of all values of a
type only the one that a literal is read as may be printed like it (`ColumnType.eq_of_read`). Hence
under the other spellings of a number it gives no row at all, even if many rows hold the number.

* `Row.build_given` — the value that a literal becomes, in whatever order the attributes come;
* `Relation.admits_comparison` — the comparison on one row;
* `Engine.finds_inserted_row` — what the query gives.
-/

namespace RelEngine

/-! ### What a literal becomes -/

/-- **A literal given for a column**: it stands beside the name of the column or, without attributes,
at the place of the column. -/
def Schema.GivenFor (s : Schema) (attributes literals : List String) (column literal : String) :
    Prop :=
  ∃ i : Nat, literals[i]? = some literal ∧
    (attributes[i]? = some column ∨ attributes = [] ∧ s.names[i]? = some column)

namespace Row

variable {schema : Schema} {attributes literals : List String} {filled : Slots schema}

/-- What has been put into a place stays there. -/
theorem assign_keeps : ∀ {i : Nat} {slots : Slots schema} {place : Fin schema.size} {v : Value},
    assign schema attributes i slots literals = .ok filled → slots place = some v →
      filled place = some v := by
  induction literals with
  | nil =>
    intro i slots place v assigned there
    cases assigned
    exact there
  | cons literal rest ih =>
    intro i slots place v assigned there
    obtain ⟨other, w, -, free, -, assigned⟩ := assign_cons_eq_ok assigned
    -- only free places are filled
    have differ : place ≠ other := by
      rintro rfl
      rw [free] at there
      cases there
    refine ih assigned ?_
    rw [Slots.fill, if_neg differ, there]

/-- Each literal is read for the field of its place, and ends there. -/
theorem assign_reads {literal : String} :
    ∀ {i n : Nat} {slots : Slots schema}, assign schema attributes i slots literals = .ok filled →
      literals[n]? = some literal → ∃ place v, target schema attributes (i + n) = .ok place ∧
        (schema.field place).type.read (schema.field place).name literal = .ok v ∧
        filled place = some v := by
  -- on the literals, each of which finds its place by its own number and then leaves the rest to
  -- the next one
  induction literals with
  | nil =>
    intro i n slots _ there
    cases there
  | cons first rest ih =>
    intro i n slots assigned there
    obtain ⟨place, v, target, -, read, assigned⟩ := assign_cons_eq_ok assigned
    cases n with
    | zero =>
      -- what is filled first is kept by all that follows
      obtain rfl := Option.some.inj there
      refine ⟨place, v, target, read, assign_keeps assigned ?_⟩
      rw [Slots.fill, if_pos rfl]
    | succ n =>
      obtain ⟨place, v, target, read, ends⟩ := ih assigned there
      refine ⟨place, v, ?_, read, ends⟩
      rw [← target, Nat.add_right_comm, Nat.add_assoc]

/-- A literal that is given for a column goes to that column. -/
theorem name_of_target (plain : ∀ f ∈ schema.fields, qualifier ∉ f.name.toList) {column : String}
    {i : Nat} {place : Fin schema.size} (goes : target schema attributes i = .ok place)
    (given : attributes[i]? = some column ∨ attributes = [] ∧ schema.names[i]? = some column) :
    (schema.field place).name = column := by
  unfold target at goes
  -- the place is found by the name that stands beside the literal or, without attributes, by
  -- counting
  rcases given with beside | ⟨rfl, here⟩
  · rw [beside] at goes
    dsimp only at goes
    exact ((Schema.position_eq_ok_iff_of_plain plain).1 goes).symm
  · rw [List.getElem?_nil] at goes
    dsimp only at goes
    split at goes
    · next within =>
      obtain rfl := Except.ok.inj goes
      rw [Schema.names, List.getElem?_map, List.getElem?_eq_getElem within] at here
      exact Option.some.inj here
    · cases goes

/-- **What a literal becomes**: the value that it is read as for its column stands in that column. -/
theorem build_given (plain : ∀ f ∈ schema.fields, qualifier ∉ f.name.toList) {row : Row}
    (built : build schema attributes literals = .ok row) {column literal : String}
    (given : schema.GivenFor attributes literals column literal) :
    ∃ (k : Nat) (f : Field) (v : Value), schema.fields[k]? = some f ∧ f.name = column ∧
      f.type.read column literal = .ok v ∧ row.values[k]? = some v := by
  obtain ⟨-, filled, assigned, values⟩ := build_eq_ok built
  obtain ⟨i, there, beside⟩ := given
  obtain ⟨place, v, goes, read, ends⟩ := assign_reads assigned there
  rw [Nat.zero_add] at goes
  have name := name_of_target plain goes beside
  rw [name] at read
  refine ⟨place.1, schema.field place, v, List.getElem?_eq_getElem place.2, name, read, ?_⟩
  rw [← values place, ends]

end Row

/-! ### The comparison -/

/-- The clause that asks for the rows in which a column equals a literal. -/
def Tree.comparison (column literal : String) : Tree :=
  .node Keyword.selection.text [.node Keyword.equality.text [.leaf column, .leaf literal]]

/-- A deletion with this clause has the comparison for its condition. -/
theorem Tree.selection_comparison (name column literal : String) :
    (deletionOf name [comparison column literal]).selection
      = .ok (some (.equal column literal)) := by
  have branch : (deletionOf name [comparison column literal]).branch .selection
      = some (comparison column literal) := by
    simp [deletionOf, comparison, branch_cons, is_keyword]
  have condition : Condition.ofTree (.node Keyword.equality.text [.leaf column, .leaf literal])
      = .ok (.equal column literal) := by
    rw [Condition.ofTree, is_keyword, decide_eq_true rfl, if_pos rfl]
    rfl
  rw [selection, branch]
  change (Condition.ofTree (.node Keyword.equality.text _)).map some = _
  rw [condition]
  rfl

namespace Relation

variable {r : Relation} {row : Row}

/-- **The comparison on one row**: the printed value of the column against the literal. -/
theorem admits_comparison (plain : r.NamesAvoid [referencePoint, qualifier])
    (schema : row.schema = r.schema) {k : Nat} {f : Field} {v : Value}
    (field : r.schema.fields[k]? = some f) (value : row.values[k]? = some v) {literal : String}
    (notField : literal ∉ r.schema.names) (notReference : ∀ rest, literal ≠ r.name ++ "." ++ rest) :
    Condition.admits (Condition.over [r.name] (some (.equal f.name literal))) row
      = .ok (v.print == literal) := by
  -- neither operand refers to the table, so that both are looked up as they stand
  have pointless : ∀ rest, f.name ≠ r.name ++ "." ++ rest :=
    ne_point_of_not_mem ((plain referencePoint (by simp)).2 f (List.mem_of_getElem? field)) _
  have unqualified : ∀ g ∈ row.schema.fields, qualifier ∉ g.name.toList := by
    rw [schema]
    exact (plain qualifier (by simp)).2
  have left : Condition.denote row f.name = .ok v.print := by
    rw [← schema] at field
    obtain ⟨i, rfl, rfl, position⟩ := row.schema.exists_position field
    exact Condition.denote_of_place position value
  have right : Condition.denote row literal = .ok literal :=
    Condition.denote_of_unstored unqualified (schema ▸ notField)
  change ((Condition.equal f.name literal).unqualified r.name).holds row = _
  rw [Condition.unqualified, Condition.unqualifiedOperand_of_not_point pointless,
    Condition.unqualifiedOperand_of_not_point notReference, Condition.holds, left, ok_bind, right,
    ok_bind]

/-- Of the rows of a table, the comparison is true of those that have the value that the literal is
read as, if this value is printed like the literal, and of no others. -/
theorem admits_comparison_of_read (sound : r.Sound) (plain : r.NamesAvoid [referencePoint, qualifier])
    {k : Nat} {f : Field} {v : Value} {literal : String} (field : r.schema.fields[k]? = some f)
    (read : f.type.read f.name literal = .ok v) (notField : literal ∉ r.schema.names)
    (notReference : ∀ rest, literal ≠ r.name ++ "." ++ rest) (member : row ∈ r.rows) :
    Condition.admits (Condition.over [r.name] (some (.equal f.name literal))) row
      = .ok (decide (row.values[k]? = some v ∧ v.print = literal)) := by
  have within : k < row.values.length := by
    rw [sound.row_arity row member]
    exact (List.getElem?_eq_some_iff.1 field).1
  have schema := sound.row_schema row member
  have value := List.getElem?_eq_getElem within
  have typed := (sound.row_typed row member).hasType (schema ▸ field) value
  rw [admits_comparison plain schema field value notField notReference, value]
  congr 1
  rw [Bool.eq_iff_iff, beq_iff_eq, decide_eq_true_eq, Option.some.injEq]
  -- a value of the same type that is printed alike is the same value
  constructor
  · intro printed
    have same := ColumnType.eq_of_read read typed printed
    exact ⟨same, same ▸ printed⟩
  · rintro ⟨same, printed⟩
    rw [same, printed]

end Relation

namespace Engine

variable {e : Engine} {tree : Tree} {name : String} {r : Relation}
  {attributes literals lines : List String}

/-- A query gives one list of rows. -/
theorem Gives.unique {rows rows' : List Row} (h : e.Gives tree rows) (h' : e.Gives tree rows') :
    rows = rows' := by
  obtain ⟨q, -, lowered, given, -⟩ := h
  obtain ⟨q', -, lowered', given', -⟩ := h'
  obtain rfl : q = q' := by
    rw [lowered] at lowered'
    exact Statement.select.inj (Except.ok.inj lowered')
  rw [given] at given'
  exact Except.ok.inj given'

/-- An insertion that succeeds has built a row, and added it. -/
theorem exists_inserted_row (there : e.catalog.find? name = some r)
    (lowered : Statement.ofTree tree = .ok (.insert name attributes literals))
    (done : (e.perform tree).result = .ok lines) :
    ∃ row, Row.build r.schema attributes literals = .ok row ∧
      (e.perform tree).engine.catalog.find? name = some (r.append row) := by
  -- an insertion that has ended was carried out, on the table that is found under the name
  rcases e.perform_cases tree with ⟨err, failed, -⟩ | ⟨s, -, lowered', -, carried⟩
  · rw [done] at failed
    cases failed
  · rw [lowered] at lowered'
    obtain rfl := Except.ok.inj lowered'
    cases carried with
    | @insert _ _ _ r' row _ there' built change =>
      obtain rfl : r = r' := by
        rw [there] at there'
        exact Option.some.inj there'
      refine ⟨row, built, ?_⟩
      rw [change name, if_pos rfl]

/-- **Looking for an inserted row.** On a table whose names hold neither point nor qualifier, an
insertion succeeds that gives a literal for a column, and the literal is no reference to the table.
The row that it adds has in the column the value that the literal is read as. The literal is the
printed form of this value if it is a text, or a plain numeral. If so, the query for the rows in
which the column equals the literal gives all rows that have this value there, the new one last. If
not, it gives none. -/
theorem finds_inserted_row (reachable : e.Reachable) (there : e.catalog.find? name = some r)
    (plain : r.NamesAvoid [referencePoint, qualifier])
    (lowered : Statement.ofTree tree = .ok (.insert name attributes literals))
    (done : (e.perform tree).result = .ok lines) {column literal : String}
    (given : r.schema.GivenFor attributes literals column literal)
    (notField : literal ∉ r.schema.names)
    (notReference : ∀ rest, literal ≠ name ++ "." ++ rest) :
    let after := (e.perform tree).engine
    ∃ (row : Row) (k : Nat) (f : Field) (v : Value),
      after.catalog.find? name = some (r.append row) ∧
      r.schema.fields[k]? = some f ∧ f.name = column ∧ f.type.read column literal = .ok v ∧
      row.values[k]? = some v ∧
      (v.print = literal ↔ f.type = .text ∨ Decimal.IsPlain literal.toList) ∧
      after.Gives (Tree.queryOf name [Tree.comparison column literal])
        (if v.print = literal then r.rows.filter (fun old => old.values[k]? = some v) ++ [row]
          else []) := by
  intro after
  obtain ⟨rfl, sound⟩ := Catalog.sound_iff.1 reachable.catalog_sound name r there
  obtain ⟨row, built, found⟩ := exists_inserted_row there lowered done
  obtain ⟨schema, typed⟩ := Row.build_typed built
  obtain ⟨k, f, v, field, rfl, read, value⟩ :=
    Row.build_given (plain qualifier (by simp)).2 built given
  -- the table with the new row is as good as the table before
  have sound' : (r.append row).Sound := sound.append schema typed
  have gives := gives_of_decided found sound' (Tree.selection_comparison r.name f.name literal)
    fun old member => Relation.admits_comparison_of_read sound' plain field read notField
      notReference member
  refine ⟨row, k, f, v, found, field, rfl, read, value, ColumnType.print_eq_iff read, ?_⟩
  -- the new row has the value, so it is asked whether that is printed like the literal
  by_cases printed : v.print = literal
  · rw [if_pos printed]
    simpa [printed, Relation.append, value] using gives
  · rw [if_neg printed]
    simpa [printed] using gives

/-- The attributes come in another order, and an older row has the same number. -/
theorem finds_inserted_row_second :
    let s : Schema := ⟨[⟨"a", .int⟩, ⟨"b", .text⟩], by decide, by decide⟩
    let old : Row := ⟨s, [.int (-7), .text "x"], rfl⟩
    let new : Row := ⟨s, [.int (-7), .text "y"], rfl⟩
    let e := (ofSettings .standard).calls
      ([.node "CREATE" [.node "TABLE" [.leaf "t"],
          .node "ATTRIBUTES" [.node "ATTRIBUTE" [.leaf "a", .leaf "INT"],
            .node "ATTRIBUTE" [.leaf "b", .leaf "STR20"]]],
        .node "INSERT" [.node "TABLE" [.leaf "t"], .node "VALUES" [.leaf "-007", .leaf "x"]]].map
          fun tree => .execute 0 tree Transcript.unlimited)
    let insertion : Tree := .node "INSERT" [.node "TABLE" [.leaf "t"],
      .node "ATTRIBUTES" [.leaf "b", .leaf "a"], .node "VALUES" [.leaf "y", .leaf "-7"]]
    (e.perform insertion).engine.Gives (Tree.queryOf "t" [Tree.comparison "a" "-7"]) [old, new] := by
  intro s old new e insertion
  let r : Relation := ⟨"t", s, [old]⟩
  have reachable : e.Reachable := reachable_calls _ _
  have there : e.catalog.find? "t" = some r := by decide +kernel
  have plain : r.NamesAvoid [referencePoint, qualifier] := by
    simp [Relation.NamesAvoid, r, s, referencePoint, qualifier]
  have lowered : Statement.ofTree insertion = .ok (.insert "t" ["b", "a"] ["y", "-7"]) := by
    decide +kernel
  have done : (e.perform insertion).result = .ok [] := by decide +kernel
  have given : s.GivenFor ["b", "a"] ["y", "-7"] "a" "-7" := ⟨1, rfl, .inl rfl⟩
  have notReference : ∀ rest, "-7" ≠ "t" ++ "." ++ rest := by
    intro rest same
    have first := congrArg (fun text : String => text.toList.head?) same
    simp at first
  obtain ⟨row, k, f, v, found, field, name, -, value, -, gives⟩ :=
    finds_inserted_row reachable there plain lowered done given (by decide) notReference
  have stored : (e.perform insertion).engine.catalog.find? "t" = some (r.append new) := by
    decide +kernel
  obtain rfl : new = row := by
    rw [stored] at found
    simpa [Relation.append] using congrArg Relation.rows (Option.some.inj found)
  rcases k with _ | _ | k
  · obtain rfl : Value.int (-7) = v := Option.some.inj value
    exact gives
  · -- the other column has another name
    obtain rfl : (⟨"b", .text⟩ : Field) = f := Option.some.inj field
    exact absurd name (by decide)
  · cases field

/-- A number with zeros in front of it is accepted, and not found under the same spelling. -/
theorem inserted_row_is_not_found :
    let s : Schema := ⟨[⟨"a", .int⟩], by decide, by decide⟩
    let r : Relation := .empty "t" s
    let row : Row := ⟨s, [.int 7], rfl⟩
    let e := (ofSettings .standard).call (.execute 0
      (.node "CREATE" [.node "TABLE" [.leaf "t"],
        .node "ATTRIBUTES" [.node "ATTRIBUTE" [.leaf "a", .leaf "INT"]]]) Transcript.unlimited)
    let insertion : Tree := .node "INSERT" [.node "TABLE" [.leaf "t"], .node "VALUES" [.leaf "007"]]
    let after := (e.perform insertion).engine
    e.Reachable ∧ e.catalog.find? "t" = some r ∧ r.NamesAvoid [referencePoint, qualifier] ∧
      Statement.ofTree insertion = .ok (.insert "t" [] ["007"]) ∧
      (e.perform insertion).result = .ok [] ∧ s.GivenFor [] ["007"] "a" "007" ∧
      "007" ∉ s.names ∧ (∀ rest, "007" ≠ "t" ++ "." ++ rest) ∧
      after.catalog.find? "t" = some (r.append row) ∧
      ∀ rows, after.Gives (Tree.queryOf "t" [Tree.comparison "a" "007"]) rows → row ∉ rows := by
  intro s r row e insertion after
  have none : after.Gives (Tree.queryOf "t" [Tree.comparison "a" "007"]) [] := by
    refine ⟨⟨⟨["*"], ["*"]⟩, false, ["t"], some (.equal "a" "007")⟩, [], ?_, ?_, ?_, ?_⟩ <;>
      decide +kernel
  refine ⟨(reachable_calls .standard []).call _, by decide +kernel, ?_, by decide +kernel,
    by decide +kernel, ⟨0, rfl, .inr ⟨rfl, rfl⟩⟩, by decide, ?_, by decide +kernel, ?_⟩
  · simp [Relation.NamesAvoid, r, s, Relation.empty, referencePoint, qualifier]
  · intro rest same
    have first := congrArg (fun text : String => text.toList.head?) same
    simp at first
  · intro rows given
    rw [given.unique none]
    exact List.not_mem_nil

end Engine

end RelEngine
