import Mathlib.Data.List.Nodup
import RelEngine.Proofs.CrossProduct

/-!
# Names of columns

A column of a query's source goes by three names on its way to the screen. It is *written* as
`table.column`, or as `column` when there is one table only; it is *fetched* by a key, which the
resolver makes of the reference; and it is *stored* under its own name in a row of a single table,
but under `table#column` in a joined row.

Here the three are tied to what is meant, a **column** by its position: the `i`-th table and the
`k`-th field of it. As long as names hold neither the point nor the qualifier, a reference to a
column is resolved to that column's value in every row of the cross product
(`Refers.fieldText_key`). Nothing about the key is of use without this, since a value fetched from
another table's column is a value as well.

* `qualify_inj` — qualified names do not clash;
* `Schema.exists_qualified` — so different tables can always be joined;
* `Combination.Of.exists_place` — where a joined row keeps the value of a column.
-/

namespace RelEngine

/-! ### Qualified names -/

/-- A qualified name is taken apart where it was put together, if the table's name has no qualifier
itself. -/
theorem splitAtFirst_qualify {table : String} (h : qualifier ∉ table.toList) (column : String) :
    Text.splitAtFirst qualifier (qualify table column) = some (table, column) := by
  refine Text.splitAtFirst_eq_some_iff.2 ⟨h, ?_⟩
  rw [qualify, String.toList_ofList]

/-- Qualified names do not clash. -/
theorem qualify_inj {table table' column column' : String} (h : qualifier ∉ table.toList)
    (h' : qualifier ∉ table'.toList) :
    qualify table column = qualify table' column' ↔ table = table' ∧ column = column' := by
  constructor
  · intro same
    have parts := splitAtFirst_qualify h column
    rw [same, splitAtFirst_qualify h'] at parts
    obtain ⟨rfl, rfl⟩ := Prod.mk.inj (Option.some.inj parts)
    exact ⟨rfl, rfl⟩
  · rintro ⟨rfl, rfl⟩
    rfl

/-- A name without the qualifier is its own column part. -/
theorem columnPart_of_unqualified {name : String} (h : qualifier ∉ name.toList) :
    columnPart name = name := by
  rw [columnPart, Text.splitAtFirst_eq_none_iff.2 h]

theorem splitAtFirst_point {table : String} (h : referencePoint ∉ table.toList) (column : String) :
    Text.splitAtFirst referencePoint (table ++ "." ++ column) = some (table, column) := by
  refine Text.splitAtFirst_eq_some_iff.2 ⟨h, ?_⟩
  rw [String.toList_append, String.toList_append, List.append_assoc]
  rfl

/-- A name without a point has none behind a table. -/
theorem ne_point_of_not_mem {name : String} (h : referencePoint ∉ name.toList)
    (table column : String) : name ≠ table ++ "." ++ column := by
  rintro rfl
  exact h (by simp [referencePoint])

namespace Schema

variable {s : Schema} {name : String}

/-- A name is not stored iff no field has it. -/
theorem stored?_eq_none_iff : s.stored? name = none ↔ ∀ f ∈ s.fields, f.name ≠ name := by
  rw [stored?, List.findFinIdx?_eq_none_iff]
  simp

/-- The name of a field resolves to the place of that field. -/
theorem exists_position {k : Nat} {f : Field} (h : s.fields[k]? = some f) :
    ∃ i : Fin s.size, i.1 = k ∧ s.field i = f ∧ s.position f.name = .ok i := by
  obtain ⟨within, rfl⟩ := List.getElem?_eq_some_iff.1 h
  exact ⟨⟨k, within⟩, rfl, rfl, s.position_of_stored ⟨k, within⟩⟩

/-- A reference with a point that is no stored name itself stands for the qualified name. -/
theorem position_point {table column : String} {i : Fin s.size}
    (absent : ∀ f ∈ s.fields, f.name ≠ table ++ "." ++ column)
    (h : referencePoint ∉ table.toList) (stored : (s.field i).name = qualify table column) :
    s.position (table ++ "." ++ column) = .ok i := by
  have there : s.stored? (qualify table column) = some i := stored?_eq_some_iff.2 stored
  rw [position, stored?_eq_none_iff.2 absent, splitAtFirst_point h]
  dsimp only
  rw [there]

theorem qualifiedFields_of_unqualified {table : String}
    (h : ∀ f ∈ s.fields, qualifier ∉ f.name.toList) :
    qualifiedFields table s = s.fields.map fun f => { f with name := qualify table f.name } := by
  refine List.map_congr_left fun f hf => ?_
  rw [columnPart_of_unqualified (h f hf)]

/-- Every name in the schema of a cross product has the qualifier in it. -/
theorem qualifier_mem_of_qualified {sources : List (String × Schema)}
    (h : qualified sources = .ok s) {f : Field} (hf : f ∈ s.fields) :
    qualifier ∈ f.name.toList := by
  rw [ofFields_eq_ok_iff.1 h, List.mem_flatMap] at hf
  obtain ⟨p, -, member⟩ := hf
  obtain ⟨g, -, rfl⟩ := List.mem_map.1 member
  rw [qualify, String.toList_ofList]
  simp

/-- **Different tables can be joined**, as long as their names have no qualifier. -/
theorem exists_qualified {sources : List (String × Schema)} (nonempty : sources ≠ [])
    (apart : (sources.map Prod.fst).Nodup)
    (unqualified : ∀ p ∈ sources, qualifier ∉ p.1.toList ∧ ∀ f ∈ p.2.fields,
      qualifier ∉ f.name.toList) :
    ∃ schema, qualified sources = .ok schema := by
  have fields : ∀ p ∈ sources, qualifiedFields p.1 p.2
      = p.2.fields.map fun f => { f with name := qualify p.1 f.name } := fun p hp =>
    qualifiedFields_of_unqualified (unqualified p hp).2
  -- one source has a field already
  have ne : (sources.flatMap fun p => qualifiedFields p.1 p.2) ≠ [] := by
    obtain ⟨p, rest, rfl⟩ := List.exists_cons_of_ne_nil nonempty
    rw [List.flatMap_cons, fields p (by simp)]
    simp [p.2.fields_ne_nil]
  have names : ∀ p ∈ sources, (qualifiedFields p.1 p.2).map Field.name
      = p.2.names.map (qualify p.1) := by
    intro p hp
    rw [fields p hp, List.map_map, names, List.map_map]
    rfl
  have nodup : ((sources.flatMap fun p => qualifiedFields p.1 p.2).map Field.name).Nodup := by
    rw [List.map_flatMap, List.nodup_flatMap]
    constructor
    · -- within one table the columns differ
      intro p hp
      rw [names p hp]
      refine p.2.names_nodup.map fun column column' same => ?_
      exact ((qualify_inj (unqualified p hp).1 (unqualified p hp).1).1 same).2
    · -- between two tables the tables do
      rw [List.Nodup, List.pairwise_map] at apart
      refine apart.imp_of_mem fun {p p'} hp hp' differ => ?_
      intro name member member'
      simp only [names p hp, names p' hp', List.mem_map] at member member'
      obtain ⟨column, -, rfl⟩ := member
      obtain ⟨column', -, same⟩ := member'
      exact differ ((qualify_inj (unqualified p' hp').1 (unqualified p hp).1).1 same).1.symm
  exact ⟨⟨_, ne, nodup⟩, ofFields_eq_ok_iff.2 rfl⟩

end Schema

/-! ### Columns and references -/

/-- **A column** of a list of tables: the place of the table and the place of a field in it. -/
structure Column where
  table : Nat
  field : Nat
deriving DecidableEq, Repr

/-- The value of a column in a combination, taken from the stored row of its table. -/
def Combination.value? (c : Combination) (column : Column) : Option Value :=
  c.parts[column.table]?.bind fun part => part.values[column.field]?

/-- **What a reference means.** `table.column` means that column of that table, and with a single
table the name of a field alone means its column too. -/
inductive Refers (tables : List Relation) : String → Column → Prop
  | point {i k : Nat} {r : Relation} {f : Field} (table : tables[i]? = some r)
      (field : r.schema.fields[k]? = some f) : Refers tables (r.name ++ "." ++ f.name) ⟨i, k⟩
  | plain {k : Nat} {r : Relation} {f : Field} (only : tables = [r])
      (field : r.schema.fields[k]? = some f) : Refers tables f.name ⟨0, k⟩

/-- No name in the table, its own or a field's, holds one of the characters. -/
def Relation.NamesAvoid (r : Relation) (chars : List Char) : Prop :=
  ∀ ch ∈ chars, ch ∉ r.name.toList ∧ ∀ f ∈ r.schema.fields, ch ∉ f.name.toList

theorem Relation.NamesAvoid.mono {r : Relation} {chars chars' : List Char}
    (h : r.NamesAvoid chars) (fewer : chars' ⊆ chars) : r.NamesAvoid chars' :=
  fun ch member => h ch (fewer member)

/-! ### Places in joined rows -/

/-- Two lists of blocks of the same lengths, one behind the other: what stands at one place of one
block in both also stands at one place in the two wholes. -/
theorem exists_getElem?_flatMap {α β γ δ : Type} {f : α → List γ} {g : β → List δ} {xs : List α}
    {ys : List β} (aligned : List.Forall₂ (fun x y => (f x).length = (g y).length) xs ys)
    {k : Nat} {a : γ} {b : δ} :
    ∀ {i : Nat} {x : α} {y : β}, xs[i]? = some x → ys[i]? = some y → (f x)[k]? = some a →
      (g y)[k]? = some b → ∃ n : Nat, (xs.flatMap f)[n]? = some a ∧ (ys.flatMap g)[n]? = some b := by
  induction aligned with
  | nil => intro i x y hx; cases hx
  | @cons x₀ y₀ xs ys same _ ih =>
    intro i x y hx hy ha hb
    rw [List.flatMap_cons, List.flatMap_cons]
    cases i with
    | zero =>
      -- the first blocks come first in both wholes
      obtain rfl : x₀ = x := Option.some.inj hx
      obtain rfl : y₀ = y := Option.some.inj hy
      have left : k < (f x₀).length := (List.getElem?_eq_some_iff.1 ha).1
      have right : k < (g y₀).length := (List.getElem?_eq_some_iff.1 hb).1
      refine ⟨k, ?_, ?_⟩
      · rw [List.getElem?_append_left left, ha]
      · rw [List.getElem?_append_left right, hb]
    | succ i =>
      -- behind them everything is shifted by the same length
      obtain ⟨n, hn, hn'⟩ := ih hx hy ha hb
      refine ⟨(f x₀).length + n, ?_, ?_⟩
      · rw [List.getElem?_append_right (Nat.le_add_right _ _), Nat.add_sub_cancel_left, hn]
      · rw [same, List.getElem?_append_right (Nat.le_add_right _ _), Nat.add_sub_cancel_left, hn']

/-- What stands at a position of a table is a row of it. -/
theorem StoredAt.forall₂ {tables : List Relation} {positions : List Nat} {parts : List Row}
    (h : StoredAt tables positions parts) :
    List.Forall₂ (fun r part => part ∈ r.rows) tables parts := by
  induction h with
  | nil => exact .nil
  | cons here _ ih => exact .cons (List.mem_of_getElem? here) ih

theorem Row.Typed.hasType {row : Row} (h : row.Typed) {k : Nat} {f : Field} {v : Value}
    (hf : row.schema.fields[k]? = some f) (hv : row.values[k]? = some v) : v.HasType f.type := by
  obtain ⟨within, rfl⟩ := List.getElem?_eq_some_iff.1 hf
  obtain ⟨_, rfl⟩ := List.getElem?_eq_some_iff.1 hv
  exact h ⟨k, within⟩

namespace Combination.Of

variable {tables : List Relation} {schema : Schema} {c : Combination} {i k : Nat} {r : Relation}
  {f : Field} {v : Value}

/-- A combination has a value for each column of its tables, and of the declared type. -/
theorem exists_value (of : c.Of tables schema) (sound : ∀ r ∈ tables, r.Sound)
    (hr : tables[i]? = some r) (hf : r.schema.fields[k]? = some f) :
    ∃ v, c.value? ⟨i, k⟩ = some v ∧ v.HasType f.type := by
  obtain ⟨part, there, member⟩ := exists_getElem?_of_forall₂ of.stored.forall₂ hr
  have good := sound r (List.mem_of_getElem? hr)
  have within : k < part.values.length := by
    rw [good.row_arity part member]
    exact (List.getElem?_eq_some_iff.1 hf).1
  have value := List.getElem?_eq_getElem within
  rw [← good.row_schema part member] at hf
  refine ⟨part.values[k], ?_, (good.row_typed part member).hasType hf value⟩
  rw [value?, there]
  exact value

/-- With one table, the joined row has its values where the stored row has them. -/
theorem values_single {only : Relation} (of : c.Of [only] schema)
    (hv : c.value? ⟨0, k⟩ = some v) : c.row.values[k]? = some v := by
  obtain ⟨positions, parts, row⟩ := c
  obtain ⟨stored, -, values⟩ := of
  -- one position, so one part
  cases stored with
  | @cons _ _ _ _ part parts _ rest =>
    cases rest
    rw [values, List.flatMap_singleton]
    exact hv

/-- **Where a joined row keeps a column**: at the place of the qualified field. -/
theorem exists_place (of : c.Of tables schema) (fits : ∀ r ∈ tables, r.Fits)
    (qualifies : Schema.qualified (tables.map fun r => (r.name, r.schema)) = .ok schema)
    (hr : tables[i]? = some r) (hf : (Schema.qualifiedFields r.name r.schema)[k]? = some f)
    (hv : c.value? ⟨i, k⟩ = some v) :
    ∃ n : Nat, schema.fields[n]? = some f ∧ c.row.values[n]? = some v := by
  -- each part has as many values as its table has fields
  have aligned : List.Forall₂ (fun r part =>
      (Schema.qualifiedFields r.name r.schema).length = part.values.length) tables c.parts := by
    refine ((List.forall₂_and_left tables c.parts).2 ⟨fits, of.stored.forall₂⟩).imp ?_
    rintro r part ⟨fits, member⟩
    rw [fits part member]
    exact List.length_map ..
  obtain ⟨part, there, value⟩ := Option.bind_eq_some_iff.1 hv
  obtain ⟨n, field, joined⟩ := exists_getElem?_flatMap aligned hr there hf value
  refine ⟨n, ?_, ?_⟩
  · rw [Schema.ofFields_eq_ok_iff.1 qualifies, List.flatMap_map]
    exact field
  · rw [of.joined.2]
    exact joined

end Combination.Of

/-! ### Fetching a column -/

/-- A reference fetches the value at the place that it resolves to. -/
theorem Row.get_of_place {row : Row} {reference : String} {i : Fin row.schema.size} {v : Value}
    (position : row.schema.position reference = .ok i) (value : row.values[i.1]? = some v) :
    row.get reference = .ok v := by
  obtain ⟨_, rfl⟩ := List.getElem?_eq_some_iff.1 value
  rw [get, position]
  rfl

/-- A value of the declared type is printed. -/
theorem Renderer.fieldText_of_place {row : Row} {reference : String} {i : Fin row.schema.size}
    {v : Value} (position : row.schema.position reference = .ok i)
    (value : row.values[i.1]? = some v) (typed : v.HasType (row.schema.field i).type) :
    fieldText row reference = .ok v.print := by
  have type : row.schema.typeOf reference = .ok (row.schema.field i).type := by
    rw [Schema.typeOf, position]
    rfl
  rw [fieldText, type, ok_bind, Row.get_of_place position value, ok_bind]
  -- a value of the other kind would not be typed
  cases declared : (row.schema.field i).type <;> cases v <;> rw [declared] at typed
  · rfl
  · cases typed
  · cases typed
  · rfl

namespace Projection

/-- Behind a point only the column is left as key, if there is a single source. -/
theorem key_point {table : String} (h : referencePoint ∉ table.toList) (column : String)
    (single : Bool) : key single (table ++ "." ++ column)
      = if single then column else table ++ "." ++ column := by
  rw [key, splitAtFirst_point h]

/-- A reference without a point is its own key. -/
theorem key_plain {name : String} (h : referencePoint ∉ name.toList) (single : Bool) :
    key single name = name := by
  rw [key, Text.splitAtFirst_eq_none_iff.2 h]

/-- A key has no characters that the reference does not have. -/
theorem not_mem_key {ch : Char} {reference : String} (h : ch ∉ reference.toList)
    (single : Bool) : ch ∉ (key single reference).toList := by
  unfold key
  split
  · next split =>
    have parts := (Text.splitAtFirst_eq_some_iff.1 split).2
    split
    · intro inColumn
      rw [parts] at h
      exact h (List.mem_append_right _ (List.mem_cons_of_mem _ inColumn))
    · exact h
  · exact h

/-- References without the star are not taken for the wildcard. -/
theorem isWildcard_eq_false {references : List String}
    (h : ∀ reference ∈ references, '*' ∉ reference.toList) : isWildcard references = false := by
  match references with
  | [] => rfl
  | first :: rest =>
    -- the first reference would be the star alone
    refine beq_eq_false_iff_ne.2 ?_
    rintro rfl
    exact h wildcard (by simp) (by decide)

end Projection

section Refers

variable {tables : List Relation} {reference : String} {column : Column}

/-- With a single table, the key of a reference is the name of the field it means. -/
theorem Refers.key_single {only : Relation} (h : Refers [only] reference column)
    (plain : only.NamesAvoid [referencePoint, qualifier]) :
    ∃ f, column.table = 0 ∧ only.schema.fields[column.field]? = some f ∧
      Projection.key true reference = f.name := by
  have point := plain referencePoint (by simp)
  cases h with
  | @point i k r f table field =>
    obtain ⟨rfl, rfl⟩ : i = 0 ∧ only = r := by
      cases i with
      | zero => exact ⟨rfl, Option.some.inj table⟩
      | succ i => cases table
    exact ⟨f, rfl, field, Projection.key_point point.1 f.name true⟩
  | @plain k r f same field =>
    obtain rfl : only = r := List.singleton_inj.1 same
    exact ⟨f, rfl, field, Projection.key_plain (point.2 f (List.mem_of_getElem? field)) true⟩

/-- The characters of a reference come from the names, up to one point. -/
theorem Refers.not_mem (h : Refers tables reference column) {ch : Char}
    (avoid : ∀ r ∈ tables, r.NamesAvoid [ch]) (other : ch ≠ referencePoint) :
    ch ∉ reference.toList := by
  cases h with
  | @point i k r f table field =>
    have names := avoid r (List.mem_of_getElem? table) ch (by simp)
    rw [String.toList_append, String.toList_append, List.mem_append, List.mem_append]
    rintro ((inTable | inPoint) | inField)
    · exact names.1 inTable
    · exact other (List.mem_singleton.1 inPoint)
    · exact names.2 f (List.mem_of_getElem? field) inField
  | @plain k r f only field =>
    exact (avoid r (by simp [only]) ch (by simp)).2 f (List.mem_of_getElem? field)

/-- A reference has at most one point, so that the resolver accepts it. -/
theorem Refers.count_point_le (h : Refers tables reference column)
    (avoid : ∀ r ∈ tables, r.NamesAvoid [referencePoint]) :
    reference.toList.count referencePoint ≤ 1 := by
  -- the names have none, and the point between them is one
  cases h with
  | @point i k r f table field =>
    have names := avoid r (List.mem_of_getElem? table) referencePoint (by simp)
    have inTable := List.count_eq_zero.2 names.1
    have inField := List.count_eq_zero.2 (names.2 f (List.mem_of_getElem? field))
    rw [String.toList_append, String.toList_append, List.count_append, List.count_append,
      inTable, inField]
    decide
  | @plain k r f only field =>
    have names := avoid r (by simp [only]) referencePoint (by simp)
    rw [List.count_eq_zero.2 (names.2 f (List.mem_of_getElem? field))]
    exact Nat.zero_le 1

/-- **References are resolved to what they mean.** In every row of the cross product the key of a
reference fetches, and prints, the value of the column that the reference means. -/
theorem Refers.fieldText_key (h : Refers tables reference column)
    (sound : ∀ r ∈ tables, r.Sound)
    (plain : ∀ r ∈ tables, r.NamesAvoid [referencePoint, qualifier]) {schema : Schema}
    (source : Query.sourceSchema tables = .ok schema) {c : Combination} (of : c.Of tables schema) :
    ∃ v, c.value? column = some v ∧
      Renderer.fieldText c.row (Projection.key (tables.length == 1) reference) = .ok v.print := by
  obtain rfl : c.row.schema = schema := of.joined.1
  match tables, h with
  | [], _ => cases source
  | [only], h =>
    -- the row has the names of the table itself
    have own : only.schema = c.row.schema := Except.ok.inj source
    obtain ⟨i, k⟩ := column
    obtain ⟨f, rfl, field, key⟩ := h.key_single (plain only (by simp))
    have first : [only][0]? = some only := rfl
    obtain ⟨v, value, typed⟩ := of.exists_value sound first field
    rw [own] at field
    obtain ⟨i, rfl, rfl, position⟩ := c.row.schema.exists_position field
    refine ⟨v, value, ?_⟩
    -- the key is the field's own name, which is stored
    change Renderer.fieldText c.row (Projection.key true _) = _
    rw [key]
    exact Renderer.fieldText_of_place position (of.values_single value) typed
  | r₁ :: r₂ :: rest, @Refers.point _ i k r f table field =>
    have member := List.mem_of_getElem? table
    have point := plain r member referencePoint (by simp)
    have front := plain r member qualifier (by simp)
    have qualified : (Schema.qualifiedFields r.name r.schema)[k]?
        = some { f with name := qualify r.name f.name } := by
      rw [Schema.qualifiedFields_of_unqualified front.2, List.getElem?_map, field]
      rfl
    obtain ⟨v, value, typed⟩ := of.exists_value sound table field
    obtain ⟨n, stored, joined⟩ :=
      of.exists_place (fun r hr => (sound r hr).fits) source table qualified value
    obtain ⟨i, rfl, there, -⟩ := c.row.schema.exists_position stored
    -- the row has qualified names, and the reference is none of them
    have absent : ∀ g ∈ c.row.schema.fields, g.name ≠ r.name ++ "." ++ f.name := by
      intro g hg same
      have inside := Schema.qualifier_mem_of_qualified source hg
      rw [same, String.toList_append, String.toList_append, List.mem_append, List.mem_append]
        at inside
      rcases inside with (inTable | inPoint) | inField
      · exact front.1 inTable
      · exact absurd inPoint (by decide)
      · exact front.2 f (List.mem_of_getElem? field) inField
    refine ⟨v, value, ?_⟩
    -- the key is the reference, which stands for the qualified name
    change Renderer.fieldText c.row (Projection.key false _) = _
    rw [Projection.key_point point.1]
    refine Renderer.fieldText_of_place (Schema.position_point absent point.1 ?_) joined ?_
    · rw [there]
    · rw [there]
      exact typed

end Refers

end RelEngine
