import Mathlib.Algebra.GroupWithZero.Nat
import RelEngine.Proofs.References

/-!
# Names in a joined schema

The fields of a joined schema are those of its sources, one source after the other, each stored under
the name of its source and its own. So the place of a field is the number of fields in front of its
source (`Schema.offset`) plus its place in the source, and what it is stored under tells both
(`Schema.exists_place_of_source`, `Schema.exists_source_of_place`).

For plain names, which hold neither the point nor the qualifier, the three steps of resolution do not
get into each other's way. A stored name has the qualifier in it, so that no plain name and no
reference made of two of them is stored. A reference with a point stands for the one stored name with
the same two parts, and a bare one for all stored names that end with it, of which each source that
declares it has exactly one.

* `Schema.joined_resolves` — different sources with plain names can be joined, and what each
  reference made of plain names resolves to in the joined schema.
-/

namespace RelEngine

/-- **Plain names** hold neither the point nor the qualifier. -/
def PlainName (name : String) : Prop :=
  referencePoint ∉ name.toList ∧ qualifier ∉ name.toList

instance (name : String) : Decidable (PlainName name) := inferInstanceAs (Decidable (_ ∧ _))

/-- Blocks of a list, one behind the other: what stands at a place of one block stands behind all
blocks in front of it. -/
theorem getElem?_flatMap_of_block {α β : Type} {f : α → List β} {xs : List α} {x : α} {k : Nat}
    {b : β} : ∀ {i : Nat}, xs[i]? = some x → (f x)[k]? = some b →
      (xs.flatMap f)[((xs.take i).map fun y => (f y).length).sum + k]? = some b := by
  -- on the blocks, with the number of the block as free as the list
  induction xs with
  | nil => intro i block; cases block
  | cons y xs ih =>
    intro i block there
    rw [List.flatMap_cons]
    cases i with
    | zero =>
      obtain rfl := Option.some.inj block
      have within : k < (f y).length := (List.getElem?_eq_some_iff.1 there).1
      simpa [List.getElem?_append_left within] using there
    | succ i =>
      -- the first block lies in front of the place
      rw [List.take_succ_cons, List.map_cons, List.sum_cons, Nat.add_assoc,
        List.getElem?_append_right (Nat.le_add_right _ _), Nat.add_sub_cancel_left]
      exact ih block there

namespace Schema

variable {sources : List (String × Schema)} {schema : Schema} {table column : String}

/-- How many fields a joined schema has in front of those of the `i`-th source. -/
def offset (sources : List (String × Schema)) (i : Nat) : Nat :=
  ((sources.take i).map fun p => p.2.size).sum

/-- **What references resolve to** in the joined schema of some sources, for the name of a table and
the name of a column. -/
structure Resolves (sources : List (String × Schema)) (schema : Schema) (table column : String) :
    Prop where
  /-- With the table, a reference resolves to the column of the source that has this name. -/
  point : ∀ (i k : Nat) (p : String × Schema) (f : Field), sources[i]? = some p →
    p.2.fields[k]? = some f → p.1 = table → f.name = column →
      (schema.position (table ++ "." ++ column)).map Fin.val = .ok (offset sources i + k) ∧
        schema.typeOf (table ++ "." ++ column) = .ok f.type
  /-- If there is no such column, the reference is not found. -/
  point_unknown : (∀ p ∈ sources, p.1 = table → column ∉ p.2.names) →
    schema.position (table ++ "." ++ column) = .error (.columnNotFound (table ++ "." ++ column))
  /-- Alone, the column resolves to that of the one source that declares it. -/
  bare : ∀ (i k : Nat) (p : String × Schema) (f : Field), sources[i]? = some p →
    p.2.fields[k]? = some f → f.name = column →
    (∀ (j : Nat) (q : String × Schema), sources[j]? = some q → column ∈ q.2.names → j = i) →
      (schema.position column).map Fin.val = .ok (offset sources i + k) ∧
        schema.typeOf column = .ok f.type
  /-- If two sources declare it, it is ambiguous. -/
  bare_ambiguous : ∀ (i j : Nat) (p q : String × Schema), i ≠ j → sources[i]? = some p →
    sources[j]? = some q → column ∈ p.2.names → column ∈ q.2.names →
      schema.position column = .error (.ambiguousColumn column)
  /-- If none does, it is not found. -/
  bare_unknown : (∀ p ∈ sources, column ∉ p.2.names) →
    schema.position column = .error (.columnNotFound column)

/-! ### Places in a joined schema -/

/-- What is stored for a table without the qualifier in its name has the column for its part. -/
theorem columnPart_qualify (h : qualifier ∉ table.toList) (column : String) :
    columnPart (qualify table column) = column := by
  rw [columnPart, splitAtFirst_qualify h]

/-- Where the joined schema keeps a field of a source, and under which name. -/
theorem exists_place_of_source (joined : qualified sources = .ok schema) {i k : Nat}
    {p : String × Schema} {f : Field} (source : sources[i]? = some p)
    (field : p.2.fields[k]? = some f) (plain : qualifier ∉ f.name.toList) :
    ∃ place : Fin schema.size, place.1 = offset sources i + k ∧
      schema.field place = { f with name := qualify p.1 f.name } := by
  have stored : (qualifiedFields p.1 p.2)[k]? = some { f with name := qualify p.1 f.name } := by
    rw [qualifiedFields, List.getElem?_map, field, Option.map_some, columnPart_of_unqualified plain]
  -- the fields get other names, and stay as many
  have lengths : ((sources.take i).map fun p => (qualifiedFields p.1 p.2).length).sum
      = offset sources i := by
    rw [offset]
    congr 2
    ext1 p
    exact List.length_map _
  have there : schema.fields[offset sources i + k]? = some { f with name := qualify p.1 f.name } := by
    rw [ofFields_eq_ok_iff.1 joined, ← lengths]
    exact getElem?_flatMap_of_block source stored
  obtain ⟨within, here⟩ := List.getElem?_eq_some_iff.1 there
  exact ⟨⟨_, within⟩, rfl, here⟩

/-- Every field of the joined schema is that of a source. -/
theorem exists_source_of_place (joined : qualified sources = .ok schema)
    (plain : ∀ p ∈ sources, ∀ f ∈ p.2.fields, qualifier ∉ f.name.toList) (place : Fin schema.size) :
    ∃ p ∈ sources, ∃ f ∈ p.2.fields, (schema.field place).name = qualify p.1 f.name := by
  have member : schema.field place ∈ schema.fields := List.getElem_mem place.2
  rw [ofFields_eq_ok_iff.1 joined, List.mem_flatMap] at member
  obtain ⟨p, source, member⟩ := member
  obtain ⟨f, field, same⟩ := List.mem_map.1 member
  refine ⟨p, source, f, field, ?_⟩
  rw [← same, columnPart_of_unqualified (plain p source f field)]

/-- What a joined schema does not store, for want of the qualifier. -/
theorem not_mem_names_of_joined (joined : qualified sources = .ok schema) {reference : String}
    (plain : qualifier ∉ reference.toList) : reference ∉ schema.names := by
  intro stored
  obtain ⟨f, field, rfl⟩ := List.mem_map.1 stored
  exact plain (qualifier_mem_of_qualified joined field)

/-- A reference made of two plain names has no qualifier in it. -/
theorem not_mem_point (plainTable : PlainName table) (plainColumn : PlainName column) :
    qualifier ∉ (table ++ "." ++ column).toList := by
  rw [String.toList_append, String.toList_append, List.mem_append, List.mem_append]
  rintro ((inTable | inPoint) | inColumn)
  · exact plainTable.2 inTable
  · exact absurd inPoint (by decide)
  · exact plainColumn.2 inColumn

/-- The place that a reference resolves to, as a number, and the type that is declared there. -/
theorem map_val_position {reference : String} {place : Fin schema.size} {n : Nat} {type : ColumnType}
    (position : schema.position reference = .ok place) (number : place.1 = n)
    (declared : (schema.field place).type = type) :
    (schema.position reference).map Fin.val = .ok n ∧ schema.typeOf reference = .ok type := by
  rw [typeOf, position, ← number, ← declared]
  exact ⟨rfl, rfl⟩

/-! ### Resolution -/

section Joined

variable (joined : qualified sources = .ok schema)
  (plain : ∀ p ∈ sources, PlainName p.1 ∧ ∀ f ∈ p.2.fields, PlainName f.name)
include joined plain

/-- So each field of a source has its place, behind those of the sources before. -/
theorem exists_stored {i k : Nat} {p : String × Schema} {f : Field} (source : sources[i]? = some p)
    (field : p.2.fields[k]? = some f) :
    ∃ place : Fin schema.size, place.1 = offset sources i + k ∧
      schema.field place = { f with name := qualify p.1 f.name } :=
  exists_place_of_source joined source field
    ((plain p (List.mem_of_getElem? source)).2 f (List.mem_of_getElem? field)).2

/-- A bare name is carried by one field of each source that declares it. -/
theorem mem_carrying_joined_iff (plainColumn : PlainName column) {place : Fin schema.size} :
    place ∈ schema.carrying column ↔
      ∃ p ∈ sources, column ∈ p.2.names ∧ (schema.field place).name = qualify p.1 column := by
  rw [mem_carrying_iff]
  constructor
  · -- the part of a stored name is the declared name, since no table has the qualifier in its own
    rintro ⟨-, part⟩
    obtain ⟨p, source, f, field, name⟩ :=
      exists_source_of_place joined (fun p hp f hf => ((plain p hp).2 f hf).2) place
    rw [name, columnPart_qualify (plain p source).1.2] at part
    subst part
    exact ⟨p, source, List.mem_map_of_mem field, name⟩
  · rintro ⟨p, source, -, name⟩
    rw [name, columnPart_qualify (plain p source).1.2]
    refine ⟨?_, rfl⟩
    rw [qualify, String.toList_ofList]
    simp

/-- A source that declares a column has one field that carries it. -/
theorem exists_carrying {i : Nat} {p : String × Schema} (source : sources[i]? = some p)
    (declared : column ∈ p.2.names) :
    ∃ place ∈ schema.carrying column, (schema.field place).name = qualify p.1 column := by
  obtain ⟨f, field, rfl⟩ := List.mem_map.1 declared
  have member := List.mem_of_getElem? source
  obtain ⟨k, there⟩ := List.mem_iff_getElem?.1 field
  obtain ⟨place, -, here⟩ := exists_stored joined plain source there
  have name : (schema.field place).name = qualify p.1 f.name := by rw [here]
  have carries := (mem_carrying_joined_iff joined plain ((plain p member).2 f field)).2
    ⟨p, member, declared, name⟩
  exact ⟨place, carries, name⟩

omit plain in
/-- A plain name is looked for among the column parts. -/
theorem position_of_plain (plainColumn : PlainName column) :
    schema.position column =
      match schema.carrying column with
      | [] => .error (.columnNotFound column)
      | [place] => .ok place
      | _ :: _ :: _ => .error (.ambiguousColumn column) := by
  -- neither of the first two rules applies, as a plain name is not stored and has no point
  have unstored : schema.stored? column = none :=
    stored?_eq_none_iff_not_mem.2 (not_mem_names_of_joined joined plainColumn.2)
  have uncut := Text.splitAtFirst_eq_none_iff.2 plainColumn.1
  rcases carrying : schema.carrying column with _ | ⟨place, _ | ⟨other, rest⟩⟩ <;>
    simp only [position, unstored, uncut, carrying]

/-- A column that one source alone declares is carried by one field alone. -/
theorem carrying_of_only {i k : Nat} {p : String × Schema} {f : Field}
    (source : sources[i]? = some p) (field : p.2.fields[k]? = some f)
    (only : ∀ (j : Nat) (q : String × Schema), sources[j]? = some q → f.name ∈ q.2.names → j = i)
    {place : Fin schema.size} (here : (schema.field place).name = qualify p.1 f.name) :
    schema.carrying f.name = [place] := by
  have member := List.mem_of_getElem? source
  have plainColumn := (plain p member).2 f (List.mem_of_getElem? field)
  refine List.perm_singleton.1 ((List.perm_ext_iff_of_nodup (schema.nodup_carrying _)
    (List.nodup_singleton place)).2 fun other => ?_)
  rw [mem_carrying_joined_iff joined plain plainColumn, List.mem_singleton]
  constructor
  · -- another source that declares it would be this one
    rintro ⟨q, member', declared, name⟩
    obtain ⟨j, source'⟩ := List.mem_iff_getElem?.1 member'
    obtain rfl := only j q source' declared
    obtain rfl : p = q := by
      rw [source] at source'
      exact Option.some.inj source'
    exact field_name_inj (by rw [name, here])
  · rintro rfl
    exact ⟨p, member, List.mem_map_of_mem (List.mem_of_getElem? field), here⟩

/-- A column that two sources declare is ambiguous. -/
theorem position_of_two (apart : (sources.map Prod.fst).Nodup) (plainColumn : PlainName column)
    {i j : Nat} {p q : String × Schema} (differ : i ≠ j) (source : sources[i]? = some p)
    (source' : sources[j]? = some q) (declared : column ∈ p.2.names)
    (declared' : column ∈ q.2.names) :
    schema.position column = .error (.ambiguousColumn column) := by
  obtain ⟨place, carries, name⟩ := exists_carrying joined plain source declared
  obtain ⟨place', carries', name'⟩ := exists_carrying joined plain source' declared'
  -- two sources have two names, hence two places
  have two : place ≠ place' := by
    rintro rfl
    rw [name] at name'
    have same := ((qualify_inj (plain p (List.mem_of_getElem? source)).1.2
      (plain q (List.mem_of_getElem? source')).1.2).1 name').1
    -- the names of the sources differ, so one name is one source
    refine differ ((List.getElem?_inj ?_ apart).1 ?_)
    · rw [List.length_map]
      exact (List.getElem?_eq_some_iff.1 source).1
    · rw [List.getElem?_map, List.getElem?_map, source, source', Option.map_some,
        Option.map_some, same]
  exact position_eq_ambiguous_of_two plainColumn.1
    (not_mem_names_of_joined joined plainColumn.2) two carries carries'

/-- With a table, a column that this table does not declare is not found. -/
theorem position_point_of_unknown (plainTable : PlainName table) (plainColumn : PlainName column)
    (unknown : ∀ p ∈ sources, p.1 = table → column ∉ p.2.names) :
    schema.position (table ++ "." ++ column)
      = .error (.columnNotFound (table ++ "." ++ column)) := by
  -- what is stored under both parts would be a field of the table that has this name
  have absent : schema.stored? (qualify table column) = none := by
    refine stored?_eq_none_iff_not_mem.2 fun stored => ?_
    rw [names_eq_map_field, List.mem_map] at stored
    obtain ⟨place, -, same⟩ := stored
    obtain ⟨p, source, f, field, name⟩ :=
      exists_source_of_place joined (fun p hp f hf => ((plain p hp).2 f hf).2) place
    obtain ⟨named, rfl⟩ := (qualify_inj (plain p source).1.2 plainTable.2).1 (name ▸ same)
    exact unknown p source named (List.mem_map_of_mem field)
  have unstored := not_mem_names_of_joined joined (not_mem_point plainTable plainColumn)
  rw [position, stored?_eq_none_iff_not_mem.2 unstored, splitAtFirst_point plainTable.1]
  dsimp only
  rw [absent]

/-- **Resolution of plain names** in a joined schema. -/
theorem resolves_of_joined (apart : (sources.map Prod.fst).Nodup) (plainTable : PlainName table)
    (plainColumn : PlainName column) : Resolves sources schema table column where
  point := by
    rintro i k p f source field rfl rfl
    obtain ⟨place, number, here⟩ := exists_stored joined plain source field
    have unstored := not_mem_names_of_joined joined (not_mem_point plainTable plainColumn)
    have absent := stored?_eq_none_iff.1 (stored?_eq_none_iff_not_mem.2 unstored)
    have stored : (schema.field place).name = qualify p.1 f.name := by rw [here]
    refine map_val_position (position_point absent plainTable.1 stored) number ?_
    rw [here]
  point_unknown := position_point_of_unknown joined plain plainTable plainColumn
  bare := by
    rintro i k p f source field rfl only
    obtain ⟨place, number, here⟩ := exists_stored joined plain source field
    have stored : (schema.field place).name = qualify p.1 f.name := by rw [here]
    have alone := carrying_of_only joined plain source field only stored
    have position : schema.position f.name = .ok place := by
      rw [position_of_plain joined plainColumn, alone]
    refine map_val_position position number ?_
    rw [here]
  bare_ambiguous := fun _ _ _ _ => position_of_two joined plain apart plainColumn
  bare_unknown := by
    intro unknown
    -- a name that no source declares is carried by no field
    have none : schema.carrying column = [] := by
      refine List.eq_nil_iff_forall_not_mem.2 fun place member => ?_
      obtain ⟨p, source, declared, -⟩ :=
        (mem_carrying_joined_iff joined plain plainColumn).1 member
      exact unknown p source declared
    rw [position_of_plain joined plainColumn, none]

end Joined

/-- **Names in a joined schema.** Sources with different names, whose names and fields are plain, have
a joined schema. In it every reference made of plain names, with a table or without, resolves to the
column that the sources declare for it, is ambiguous, or is not found. -/
theorem joined_resolves (nonempty : sources ≠ []) (apart : (sources.map Prod.fst).Nodup)
    (plain : ∀ p ∈ sources, PlainName p.1 ∧ ∀ f ∈ p.2.fields, PlainName f.name) :
    ∃ schema, qualified sources = .ok schema ∧
      ∀ table column, PlainName table → PlainName column →
        Resolves sources schema table column := by
  obtain ⟨schema, joined⟩ := exists_qualified nonempty apart fun p hp =>
    ⟨(plain p hp).1.2, fun f hf => ((plain p hp).2 f hf).2⟩
  exact ⟨schema, joined, fun _ _ => resolves_of_joined joined plain apart⟩

/-- Two sources that share a column: with the table each of the two is found, alone it is ambiguous,
and the other columns are found either way. -/
theorem joined_resolves_pair :
    let first : Schema := ⟨[⟨"id", .int⟩, ⟨"name", .text⟩], by decide, by decide⟩
    let second : Schema := ⟨[⟨"id", .int⟩, ⟨"grade", .text⟩], by decide, by decide⟩
    ∃ schema, qualified [("a", first), ("b", second)] = .ok schema ∧
      (schema.position "b.id").map Fin.val = .ok 2 ∧
      schema.position "id" = .error (.ambiguousColumn "id") ∧
      (schema.position "grade").map Fin.val = .ok 3 ∧ schema.typeOf "grade" = .ok .text ∧
      schema.position "a.grade" = .error (.columnNotFound "a.grade") := by
  intro first second
  have apart : ([("a", first), ("b", second)].map Prod.fst).Nodup := by decide
  obtain ⟨schema, joined, resolves⟩ := joined_resolves (by simp) apart (by decide +kernel)
  have byId := resolves "b" "id" (by decide) (by decide)
  have byGrade := resolves "a" "grade" (by decide) (by decide)
  -- no other source declares the column, which is checked one by one
  have only : ∀ (j : Nat) (q : String × Schema), [("a", first), ("b", second)][j]? = some q →
      "grade" ∈ q.2.names → j = 1 := by
    rintro (_ | _ | j) q there declared
    · obtain rfl := Option.some.inj there
      exact absurd declared (by decide)
    · rfl
    · cases there
  have alone := byGrade.bare 1 1 ("b", second) ⟨"grade", .text⟩ rfl rfl rfl only
  refine ⟨schema, joined, ?_, ?_, alone.1, alone.2, ?_⟩
  · exact (byId.point 1 0 ("b", second) ⟨"id", .int⟩ rfl rfl rfl rfl).1
  · exact byId.bare_ambiguous 0 1 _ _ (by decide) rfl rfl (by decide) (by decide)
  · refine byGrade.point_unknown fun p member named => ?_
    rcases List.mem_pair.1 member with rfl | rfl
    · decide
    · exact absurd named (by decide)

end Schema

end RelEngine
