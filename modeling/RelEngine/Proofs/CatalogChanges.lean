import RelEngine.Execution
import RelEngine.Proofs.Results

/-!
# What statements do to the catalog

A statement that succeeds makes one of four changes to the catalog, each to the table that it names,
or, as a query, none. `Catalog.CarriesOut` lists them with the conditions under which they are made:
a registered name was free, a new row was built for the schema, a deletion could decide its
condition on every row. The changes are described through `Catalog.find?`, name by name.

A statement that fails changes nothing. For a deletion that is no matter of course, since the table
is put back after the scan whether the scan has succeeded or not: the scan gives back the table as
it was (`Relation.removeWhere_of_error`), and putting back what is there changes nothing.

* `Catalog.run_cases` — a statement fails and changes nothing, or is carried out in full.
-/

namespace RelEngine

/-! ### Scanning a table -/

/-- Whether a computation answers yes. -/
def affirmed {ε : Type} : Except ε Bool → Bool
  | .ok b => b
  | .error _ => false

/-- A scan that goes through has an answer for each of its members. -/
theorem eq_ok_affirmed_of_mapM {ε α : Type} {f : α → Except ε Bool} {xs : List α} {marks : List Bool}
    (scanned : xs.mapM f = .ok marks) {x : α} (member : x ∈ xs) : f x = .ok (affirmed (f x)) := by
  obtain ⟨b, -, answer⟩ := exists_of_mem_right (mapM_eq_ok_iff.1 scanned).flip member
  rw [answer]
  rfl

namespace Relation

variable {r : Relation} {condition : Row → Except Error Bool}

/-- A scan that fails leaves the table as it was. -/
theorem removeWhere_of_error {e : Error} (h : (r.removeWhere condition).2 = .error e) :
    (r.removeWhere condition).1 = r := by
  unfold removeWhere at h ⊢
  split
  · rfl
  · next marks scanned => rw [scanned] at h; cases h

/-- The rows without a mark are those that the condition does not affirm. -/
theorem unmarked_eq_filter {rows : List Row} {marks : List Bool}
    (h : List.Forall₂ (fun row mark => condition row = .ok mark) rows marks) :
    ((rows.zip marks).filter fun p => !p.2).map Prod.fst
      = rows.filter fun row => !affirmed (condition row) := by
  induction h with
  | nil => rfl
  | @cons row mark rows marks hrow _ ih =>
    have same : affirmed (condition row) = mark := by rw [hrow]; rfl
    cases mark <;> simp [same, ih]

/-- A scan that succeeds has decided the condition on every row, and leaves the rows that the
condition denies. -/
theorem removeWhere_of_ok {n : Nat} (h : (r.removeWhere condition).2 = .ok n) :
    (∀ row ∈ r.rows, ∃ b, condition row = .ok b) ∧
      (r.removeWhere condition).1
        = { r with rows := r.rows.filter fun row => !affirmed (condition row) } := by
  unfold removeWhere at h ⊢
  split
  · next e scanned => rw [scanned] at h; cases h
  · next marks scanned =>
    refine ⟨fun row member => ⟨_, eq_ok_affirmed_of_mapM scanned member⟩, ?_⟩
    dsimp only
    -- one mark for each row, and it is what the condition says of the row
    rw [unmarked_eq_filter (mapM_eq_ok_iff.1 scanned)]

/-- A scan whose condition is decided on every row divides the rows: those that it denies stay, and
the others are counted. -/
theorem removeWhere_of_decided {p : Row → Bool}
    (decided : ∀ row ∈ r.rows, condition row = .ok (p row)) :
    r.removeWhere condition
      = ({ r with rows := r.rows.filter fun row => !p row }, .ok (r.rows.filter p).length) := by
  have scanned : r.rows.mapM condition = .ok (r.rows.map p) :=
    mapM_eq_ok_iff.2 (List.forall₂_map_right_iff.2 (List.forall₂_same.2 decided))
  have left : ((r.rows.zip (r.rows.map p)).filter fun mark => !mark.2).map Prod.fst
      = r.rows.filter fun row => !p row := by
    rw [unmarked_eq_filter (mapM_eq_ok_iff.1 scanned)]
    refine List.filter_congr fun row member => ?_
    rw [decided row member]
    rfl
  -- the count is taken from what is left
  have both := List.length_eq_length_filter_add (l := r.rows) p
  rw [removeWhere, scanned]
  dsimp only
  rw [← List.length_map Prod.fst, left]
  congr 2
  omega

end Relation

/-! ### Statements carried out -/

namespace Catalog

/-- **A change at one name**: under it `c'` has the given table or none, under every other name
what `c` has. -/
def ChangesAt (c : Catalog) (name : String) (table : Option Relation) (c' : Catalog) : Prop :=
  ∀ other, c'.find? other = if other = name then table else c.find? other

/-- A catalog differs from itself nowhere. -/
theorem changesAt_self {c : Catalog} {name : String} {table : Option Relation}
    (there : c.find? name = table) : c.ChangesAt name table c := by
  intro other
  by_cases here : other = name
  · rw [if_pos here, here, there]
  · rw [if_neg here]

/-- Of two changes at one name the later one counts. -/
theorem ChangesAt.trans {c c' c'' : Catalog} {name : String} {table table' : Option Relation}
    (first : c.ChangesAt name table c') (second : c'.ChangesAt name table' c'') :
    c.ChangesAt name table' c'' := by
  intro other
  rw [second other]
  by_cases here : other = name
  · rw [if_pos here, if_pos here]
  · rw [if_neg here, if_neg here, first other, if_neg here]

/-- **Carrying out a statement**: what it makes of a catalog when it succeeds. -/
inductive CarriesOut (c : Catalog) : Statement → Catalog → Prop
  /-- A table without rows comes under a free name. -/
  | create {table : String} {fields : List Field} {schema : Schema} {c' : Catalog}
      (free : c.find? table = none) (made : Schema.ofFields fields = .ok schema)
      (change : c.ChangesAt table (some (.empty table schema)) c') :
      CarriesOut c (.create table fields) c'
  /-- The row that the literals describe comes behind the others. -/
  | insert {table : String} {attributes literals : List String} {r : Relation} {row : Row}
      {c' : Catalog} (there : c.find? table = some r)
      (built : Row.build r.schema attributes literals = .ok row)
      (change : c.ChangesAt table (some (r.append row)) c') :
      CarriesOut c (.insert table attributes literals) c'
  /-- A query changes nothing. -/
  | select {q : Query} : CarriesOut c (.select q) c
  /-- The rows of which the condition is true go, the others stay in their order. -/
  | delete {table : String} {selection : Option Condition} {r : Relation} {c' : Catalog}
      (there : c.find? table = some r)
      (decided : ∀ row ∈ r.rows, ∃ b, Condition.admits selection row = .ok b)
      (change : c.ChangesAt table
        (some { r with rows := r.rows.filter fun row => !affirmed (Condition.admits selection row) })
        c') :
      CarriesOut c (.delete table selection) c'
  /-- The table goes with its rows. -/
  | drop {table : String} {r : Relation} {c' : Catalog} (there : c.find? table = some r)
      (change : c.ChangesAt table none c') :
      CarriesOut c (.drop table) c'

/-- A query changes nothing. -/
theorem CarriesOut.eq_of_select {c c' : Catalog} {s : Statement} (h : c.CarriesOut s c')
    (query : s.keyword = .select) : c' = c := by
  cases h with
  | select => rfl
  | _ => cases query

/-- A table is found by its name, or it is an error. -/
theorem find_eq_ok_iff {c : Catalog} {name : String} {r : Relation} :
    c.find name = .ok r ↔ c.find? name = some r := by
  unfold find
  cases c.find? name <;> simp

/-- **What an effect may be**: a failure that changes nothing, or the statement carried out. -/
def AllOrNothing (c : Catalog) (s : Statement) (effect : Effect) : Prop :=
  (∃ e, effect.result = .error e ∧ effect.catalog = c) ∨
    (∃ lines, effect.result = .ok lines ∧ c.CarriesOut s effect.catalog)

/-- A name under which a table is found cannot be registered. -/
theorem register_of_taken {c : Catalog} {name : String} {r : Relation}
    (there : c.find? name = some r) (fields : List Field) :
    c.register name fields = .error (.tableExists name) := by
  unfold register
  split
  · rfl
  · next free =>
    rw [there] at free
    cases free

/-- A free name is registered if the fields make a schema. -/
theorem register_of_free {c : Catalog} {name : String} (free : c.find? name = none)
    (fields : List Field) :
    c.register name fields
      = (Schema.ofFields fields).map fun schema => c.insert name (.empty name schema) free := by
  unfold register
  split
  · next r there =>
    rw [free] at there
    cases there
  · cases Schema.ofFields fields <;> rfl

variable (c : Catalog)

/-- Only a free name is registered, and only with fields that make a schema. -/
theorem register_eq_ok {c' : Catalog} {name : String} {fields : List Field}
    (h : c.register name fields = .ok c') :
    ∃ schema, c.find? name = none ∧ Schema.ofFields fields = .ok schema ∧
      c.ChangesAt name (some (.empty name schema)) c' := by
  -- the name has to be free, and the fields have to make a schema
  cases free : c.find? name with
  | some r =>
    rw [register_of_taken free] at h
    cases h
  | none =>
    rw [register_of_free free] at h
    cases made : Schema.ofFields fields with
    | error e =>
      rw [made] at h
      cases h
    | ok schema =>
      rw [made] at h
      obtain rfl := Except.ok.inj h
      exact ⟨schema, rfl, rfl, find?_insert free⟩

/-- A table whose name is free and whose fields make a schema is made. -/
theorem runCreate_of_free {table : String} {fields : List Field} {schema : Schema}
    (free : c.find? table = none) (made : Schema.ofFields fields = .ok schema) :
    (c.runCreate table fields).result = .ok [] ∧
      c.ChangesAt table (some (.empty table schema)) (c.runCreate table fields).catalog := by
  have registered : c.register table fields
      = .ok (c.insert table (.empty table schema) free) := by
    rw [register_of_free free, made]
    rfl
  rw [runCreate, registered]
  exact ⟨rfl, find?_insert free⟩

/-- A row that the literals describe is added. -/
theorem runInsert_of_built {table : String} {attributes literals : List String} {r : Relation}
    {row : Row} (there : c.find? table = some r)
    (built : Row.build r.schema attributes literals = .ok row) :
    (c.runInsert table attributes literals).result = .ok [] ∧
      c.ChangesAt table (some (r.append row)) (c.runInsert table attributes literals).catalog := by
  rw [runInsert, find_eq_ok_iff.2 there]
  dsimp only
  rw [built]
  exact ⟨rfl, find?_replace there _⟩

/-- Creating a table either fails and leaves the catalog, or adds the empty table. -/
theorem runCreate_cases (table : String) (fields : List Field) :
    c.AllOrNothing (.create table fields) (c.runCreate table fields) := by
  unfold runCreate
  split
  · next e _ => exact .inl ⟨e, rfl, rfl⟩
  · next c' registered =>
    obtain ⟨schema, free, made, change⟩ := c.register_eq_ok registered
    exact .inr ⟨[], rfl, .create free made change⟩

/-- An insertion fails before it has changed anything, or adds its row. -/
theorem runInsert_cases (table : String) (attributes literals : List String) :
    c.AllOrNothing (.insert table attributes literals) (c.runInsert table attributes literals) := by
  unfold runInsert
  split
  · next e _ => exact .inl ⟨e, rfl, rfl⟩
  · next r there =>
    rw [find_eq_ok_iff] at there
    split
    · next e _ => exact .inl ⟨e, rfl, rfl⟩
    · next row built => exact .inr ⟨[], rfl, .insert there built (find?_replace there _)⟩

/-- A deletion that fails puts the table back with all its rows, and otherwise with those that are
left. -/
theorem runDelete_cases (table : String) (selection : Option Condition) :
    c.AllOrNothing (.delete table selection) (c.runDelete table selection) := by
  unfold runDelete
  split
  · next e _ => exact .inl ⟨e, rfl, rfl⟩
  · next r there =>
    rw [find_eq_ok_iff] at there
    dsimp only
    split
    · next e failed =>
      refine .inl ⟨e, rfl, ?_⟩
      -- the table that is put back is the one that was there
      change c.replace table (r.removeWhere (Condition.admits selection)).1 = c
      rw [Relation.removeWhere_of_error failed, replace_self there]
    · next n scanned =>
      obtain ⟨decided, left⟩ := Relation.removeWhere_of_ok scanned
      refine .inr ⟨[], rfl, .delete there decided ?_⟩
      rw [← left]
      exact find?_replace there _

/-- Dropping fails over a table that is not there, or takes the one that is. -/
theorem runDrop_cases (table : String) :
    c.AllOrNothing (.drop table) (c.runDrop table) := by
  unfold runDrop
  split
  · next e _ => exact .inl ⟨e, rfl, rfl⟩
  · next c' r dropped =>
    obtain ⟨r', there, erased⟩ := bind_eq_ok_iff.1 dropped
    cases erased
    exact .inr ⟨[], rfl, .drop (find_eq_ok_iff.1 there) (find?_erase c table)⟩

theorem runSelect_cases (m : Memory) (r : Renderer) (q : Query) :
    c.AllOrNothing (.select q) (c.runSelect m r q) := by
  -- a query has no part in the catalog, whatever becomes of it
  cases ended : (c.runSelect m r q).result with
  | error e => exact .inl ⟨e, ended, rfl⟩
  | ok lines => exact .inr ⟨lines, ended, .select⟩

/-- **All or nothing**: a statement fails and changes nothing, or it is carried out. -/
theorem run_cases (m : Memory) (r : Renderer) (s : Statement) :
    c.AllOrNothing s (c.run m r s) := by
  cases s with
  | create table fields => exact c.runCreate_cases table fields
  | insert table attributes literals => exact c.runInsert_cases table attributes literals
  | select q => exact c.runSelect_cases m r q
  | delete table selection => exact c.runDelete_cases table selection
  | drop table => exact c.runDrop_cases table

end Catalog

end RelEngine
