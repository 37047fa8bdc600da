import RelEngine.Proofs.CatalogChanges
import RelEngine.Proofs.Reachability

/-!
# The store invariant

What is stored stays well formed over every run: each table lies in the catalog under its own name,
its schema has a field and no name twice, and each of its rows carries that schema with one value of
the declared type for each field (`Catalog.Sound`).

The catalog and the rows do not say so themselves. A catalog is a list of tables under keys, and a
row is checked for its length only. The typing comes from the construction of rows: the places of a
row under construction hold values of their fields' types, which is kept by each literal that is put
into its place (`Row.assign_typed`). From there on rows move only as a whole.

Main statements:

* `Row.build_typed` — rows built from literals are typed;
* `Catalog.run_sound` — a statement of any kind, failed or not, keeps the catalog sound;
* `Engine.Reachable.catalog_sound` — the catalogs of all reachable engines are sound.
-/

namespace RelEngine

/-! ### Rows from literals -/

namespace Row

variable {schema : Schema}

/-- **Typed places**: what has been put into a place has the type of its field. -/
def Slots.Typed (slots : Slots schema) : Prop :=
  ∀ i v, slots i = some v → v.HasType (schema.field i).type

/-- Places that are all free are typed. -/
theorem Slots.typed_empty : Slots.Typed (fun _ => none : Slots schema) :=
  fun _ _ h => nomatch h

/-- A slot that is filled with a value of its type leaves the slots typed. -/
theorem Slots.Typed.fill {slots : Slots schema} (h : slots.Typed) {i : Fin schema.size} {v : Value}
    (hv : v.HasType (schema.field i).type) : (slots.fill i v).Typed := by
  intro j w hw
  unfold Slots.fill at hw
  -- the filled slot, and the others, which are as they were
  by_cases hj : j = i
  · rw [if_pos hj, Option.some.injEq] at hw
    subst hj hw
    exact hv
  · rw [if_neg hj] at hw
    exact h j w hw

/-- Wherever the first literal goes, its place is free and it is read for the field of that place. -/
theorem assign_cons_eq_ok {attributes rest : List String} {literal : String} {i : Nat}
    {slots filled : Slots schema}
    (h : assign schema attributes i slots (literal :: rest) = .ok filled) :
    ∃ place v, target schema attributes i = .ok place ∧ slots place = none ∧
      (schema.field place).type.read (schema.field place).name literal = .ok v ∧
      assign schema attributes (i + 1) (slots.fill place v) rest = .ok filled := by
  unfold assign at h
  obtain ⟨place, target, h⟩ := bind_eq_ok_iff.1 h
  -- a place that is taken is an error, and so is a literal that cannot be read
  by_cases taken : (slots place).isSome
  · rw [if_pos taken] at h
    cases h
  · rw [if_neg taken] at h
    obtain ⟨v, read, h⟩ := bind_eq_ok_iff.1 h
    exact ⟨place, v, target, Option.not_isSome_iff_eq_none.1 taken, read, h⟩

/-- Reading literals into their places keeps the places typed, in whatever order the attributes
name them. -/
theorem assign_typed {attributes literals : List String} {filled : Slots schema} :
    ∀ {i : Nat} {slots : Slots schema}, slots.Typed →
      assign schema attributes i slots literals = .ok filled → filled.Typed := by
  -- on the literals, each of which fills one place with a value of its type
  induction literals with
  | nil =>
    intro i slots h assigned
    cases assigned
    exact h
  | cons literal rest ih =>
    intro i slots h assigned
    obtain ⟨place, v, -, -, read, assigned⟩ := assign_cons_eq_ok assigned
    exact ih (h.fill (ColumnType.hasType_of_read read)) assigned

/-- The collected values are those in the places. -/
theorem collect_eq_ok {slots : Slots schema} {values : List Value}
    (h : collect slots = .ok values) (i : Fin schema.size) (hi : i.1 < values.length) :
    slots i = some values[i.1] := by
  -- the values are collected place by place, so each comes from its own
  have each := mapM_eq_ok_iff.1 h
  have there := each.get (by simp : i.1 < (List.finRange schema.size).length) hi
  simp only [List.get_eq_getElem, List.getElem_finRange, Fin.cast_mk, Fin.eta] at there
  cases hs : slots i with
  | none => rw [hs] at there; cases there
  | some v =>
    rw [hs] at there
    rw [Except.ok.inj there]

/-- A row that is built has what the literals have put into the places. -/
theorem build_eq_ok {attributes literals : List String} {row : Row}
    (h : build schema attributes literals = .ok row) :
    row.schema = schema ∧ ∃ filled : Slots schema,
      assign schema attributes 0 (fun _ => none) literals = .ok filled ∧
      ∀ i, filled i = row.values[i.1]? := by
  unfold build at h
  dsimp only at h
  -- both counts have passed, else there is no row
  split at h
  · cases h
  split at h
  · cases h
  obtain ⟨filled, assigned, h⟩ := bind_eq_ok_iff.1 h
  obtain ⟨values, collected, h⟩ := bind_eq_ok_iff.1 h
  obtain ⟨rfl, rfl⟩ := ofValues_eq_ok_iff.1 h
  refine ⟨rfl, filled, assigned, fun i => ?_⟩
  have within : i.1 < row.values.length := by rw [row.arity]; exact i.2
  rw [collect_eq_ok collected i within, List.getElem?_eq_getElem within]

/-- **Rows built from literals are typed**, and carry the schema they were built for. -/
theorem build_typed {attributes literals : List String} {row : Row}
    (h : build schema attributes literals = .ok row) : row.schema = schema ∧ row.Typed := by
  obtain ⟨rfl, filled, assigned, values⟩ := build_eq_ok h
  refine ⟨rfl, fun i => ?_⟩
  -- the places were free in the beginning, hence typed all along
  have typed : filled.Typed := assign_typed Slots.typed_empty assigned
  refine typed i (row.value i) ?_
  rw [values i]
  exact List.getElem?_eq_getElem _

end Row

/-! ### Sound catalogs -/

/-- **Soundness of a stored table.** -/
structure Relation.Sound (r : Relation) : Prop where
  /-- The schema has a field. -/
  fields_ne_nil : r.schema.fields ≠ []
  /-- No two fields have one name. -/
  names_nodup : r.schema.names.Nodup
  /-- Every row carries the schema of the table. -/
  row_schema : ∀ row ∈ r.rows, row.schema = r.schema
  /-- Every row has one value for each field. -/
  row_arity : ∀ row ∈ r.rows, row.values.length = r.schema.fields.length
  /-- Every value has the type that its field declares. -/
  row_typed : ∀ row ∈ r.rows, row.Typed

/-- **Soundness of a catalog**: every table lies under its own name and is sound. -/
def Catalog.Sound (c : Catalog) : Prop :=
  ∀ entry ∈ c.entries, entry.2.name = entry.1 ∧ entry.2.Sound

namespace Relation

/-- What a schema and a row guarantee by themselves leaves two things to show of a table. -/
theorem sound_of_rows {r : Relation} (row_schema : ∀ row ∈ r.rows, row.schema = r.schema)
    (row_typed : ∀ row ∈ r.rows, row.Typed) : r.Sound where
  fields_ne_nil := r.schema.fields_ne_nil
  names_nodup := r.schema.names_nodup
  row_schema := row_schema
  row_arity row hrow := by rw [row.arity, row_schema row hrow]
  row_typed := row_typed

theorem sound_empty (name : String) (schema : Schema) : (empty name schema).Sound :=
  sound_of_rows (fun _ h => nomatch h) fun _ h => nomatch h

/-- A row built for the table's schema may be added. -/
theorem Sound.append {r : Relation} (h : r.Sound) {row : Row} (row_schema : row.schema = r.schema)
    (row_typed : row.Typed) : (r.append row).Sound := by
  refine sound_of_rows ?_ ?_
  · intro old hold
    rcases List.mem_append.1 hold with hold | hold
    · exact h.row_schema old hold
    · rw [List.mem_singleton.1 hold, row_schema]
      rfl
  · intro old hold
    rcases List.mem_append.1 hold with hold | hold
    · exact h.row_typed old hold
    · rwa [List.mem_singleton.1 hold]

/-- A sound table stays so with fewer rows. -/
theorem Sound.filter {r : Relation} (h : r.Sound) (keep : Row → Bool) :
    Sound { r with rows := r.rows.filter keep } := by
  refine sound_of_rows ?_ ?_
  · exact fun row hrow => h.row_schema row (List.mem_of_mem_filter hrow)
  · exact fun row hrow => h.row_typed row (List.mem_of_mem_filter hrow)

end Relation

namespace Catalog

/-- A catalog is sound iff every table that is found in it is sound, under its own name. -/
theorem sound_iff {c : Catalog} :
    c.Sound ↔ ∀ name r, c.find? name = some r → r.name = name ∧ r.Sound := by
  constructor
  · intro h name r found
    exact h (name, r) (find?_eq_some_iff.1 found)
  · rintro h ⟨name, r⟩ stored
    exact h name r (find?_eq_some_iff.2 stored)

/-- The empty catalog is sound. -/
theorem sound_empty : Catalog.empty.Sound := fun _ h => nomatch h

/-- A change at one name keeps a catalog sound, if what is found there afterwards is a sound table of
that name, or nothing. -/
theorem Sound.of_change {c c' : Catalog} (h : c.Sound) {name : String} {table : Option Relation}
    (change : c.ChangesAt name table c') (sound : ∀ r ∈ table, r.name = name ∧ r.Sound) :
    c'.Sound := by
  rw [sound_iff] at h ⊢
  intro other r found
  rw [change] at found
  by_cases hn : other = name
  · -- what is found under the changed name is the new table
    rw [if_pos hn] at found
    rw [hn]
    exact sound r found
  · rw [if_neg hn] at found
    exact h other r found

/-- **One step.** Whatever statement is carried out, soundness is kept: only a new row could break
it, and that was built for the schema. -/
theorem Sound.carriesOut {c c' : Catalog} {s : Statement} (h : c.Sound) (done : c.CarriesOut s c') :
    c'.Sound := by
  -- one case for each statement, with the one table that it changes
  cases done with
  | @create table fields schema _ free made change =>
    refine h.of_change change fun r hr => ?_
    cases hr
    exact ⟨rfl, Relation.sound_empty table schema⟩
  | @insert table attributes literals r row _ there built change =>
    obtain ⟨named, sound⟩ := sound_iff.1 h table r there
    obtain ⟨row_schema, row_typed⟩ := Row.build_typed built
    refine h.of_change change fun r' hr' => ?_
    cases hr'
    exact ⟨named, sound.append row_schema row_typed⟩
  | select => exact h
  | @delete table selection r _ there decided change =>
    obtain ⟨named, sound⟩ := sound_iff.1 h table r there
    refine h.of_change change fun r' hr' => ?_
    cases hr'
    exact ⟨named, sound.filter _⟩
  | drop there change => exact h.of_change change fun _ hr => nomatch hr

/-- **Every statement keeps the catalog sound**, whether it succeeds or fails. -/
theorem run_sound {c : Catalog} (m : Memory) (r : Renderer) (s : Statement) (h : c.Sound) :
    (c.run m r s).catalog.Sound := by
  rcases c.run_cases m r s with ⟨e, -, same⟩ | ⟨lines, -, done⟩
  · -- a statement that has failed leaves the catalog that was sound
    rwa [same]
  · exact h.carriesOut done

end Catalog

namespace Engine

/-- So the catalog of every reachable engine is sound. -/
theorem Reachable.catalog_sound {e : Engine} (h : e.Reachable) : e.catalog.Sound :=
  h.catalog_invariant Catalog.sound_empty fun _ m r s hc => Catalog.run_sound m r s hc

/-- Tables that are found in a reachable engine are sound and bear the names they are found by. -/
theorem Reachable.sound_of_found {e : Engine} (h : e.Reachable) {names : List String}
    {tables : List Relation}
    (there : List.Forall₂ (fun name r => e.catalog.find? name = some r) names tables) :
    names = tables.map Relation.name ∧ ∀ r ∈ tables, r.Sound := by
  -- what is found is sound and lies under its own name
  have each := Catalog.sound_iff.1 h.catalog_sound
  constructor
  · rw [← List.forall₂_eq_eq_eq, List.forall₂_map_right_iff]
    exact there.imp fun name r found => (each name r found).1.symm
  · intro r hr
    obtain ⟨name, -, found⟩ := exists_of_mem_right there hr
    exact (each name r found).2

/-- **The store invariant**: whatever calls are made on a new engine, and whatever becomes of them,
each table lies in the catalog under its own name and is sound. -/
theorem store_sound_of_calls (s : Settings) (cs : List Call) :
    ((ofSettings s).calls cs).catalog.Sound :=
  (reachable_calls s cs).catalog_sound

end Engine

end RelEngine
