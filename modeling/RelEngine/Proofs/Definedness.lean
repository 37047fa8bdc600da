import RelEngine.Proofs.PartialOperations
import RelEngine.Proofs.Transfers

/-!
# No operation is hit where it is not defined

The raw engine answers `none` as soon as an operation is executed outside of where it is defined.
This module shows that it never does: started from any settings, whatever trees it is given, it
arrives at the raw data of the engine, and does to them what the engine does
(`Engine.no_undefined_operation`).

A raw computation **settles** into a computation of the engine if it hits no such operation and ends
like it, with the raw form of its result or with its error (`Raw.Settles`). Each function has one
lemma, and the lemma of a caller is put together from those of its callees by `Raw.Settles.bind`.
The conditions are met at three kinds of places. Most are facts that the types of the engine carry:
a schema is not empty, a row has a value for each field, memory has two frames. Two are carried
through loops: while a row is built, the literals that are left have places left, and while tables
are joined, the width reached and those of the tables that are left fit into the schema. The last
are two differences: a deletion keeps no more rows than there were, and the disk counters never go
down.
-/

namespace RelEngine

namespace Raw

variable {α α' β β' γ γ' : Type}

/-! ### Settled computations -/

theorem settled_ok_bind (a : α) (g : α → Run β) : (settled (.ok a) >>= g) = g a := rfl

theorem attempt_some_bind (a : α) (g : α → Run β) : (attempt (some a) >>= g) = g a := rfl

/-- **A raw computation settles** into a computation of the engine: it hits no operation that is not
defined, and it ends with the same error or with the raw form of the same result. -/
def Settles (y : Run α') (raw : α → α') (x : Except Error α) : Prop := y = settled (x.map raw)

/-- Where results are their own raw form, to settle is to end in the same way. -/
theorem settles_id_iff {y : Run α} {x : Except Error α} : Settles y id x ↔ y = settled x := by
  rw [Settles, Except.map_id]
  rfl

theorem Settles.run_eq {y : Run α'} {raw : α → α'} {x : Except Error α} (h : Settles y raw x) :
    y.run = some (x.map raw) := h

/-- Two steps that settle, one after the other. -/
theorem Settles.bind {y : Run α'} {raw : α → α'} {x : Except Error α} {g : α' → Run β'}
    {raw' : β → β'} {f : α → Except Error β} (h : Settles y raw x)
    (next : ∀ a, x = .ok a → Settles (g (raw a)) raw' (f a)) :
    Settles (y >>= g) raw' (x >>= f) := by
  rw [Settles] at h
  subst h
  cases x with
  | error e => rfl
  | ok a => exact next a rfl

/-- A step for each element that settles. -/
theorem Settles.mapM {raw : α → α'} {raw' : β → β'} {g : α' → Run β'} {f : α → Except Error β}
    {xs : List α} (h : ∀ a ∈ xs, Settles (g (raw a)) raw' (f a)) :
    Settles ((xs.map raw).mapM g) (List.map raw') (xs.mapM f) := by
  induction xs with
  | nil => rfl
  | cons a xs ih =>
    rw [List.forall_mem_cons] at h
    rw [List.map_cons, List.mapM_cons, List.mapM_cons]
    refine h.1.bind fun b _ => ?_
    exact (ih h.2).bind fun bs _ => rfl

/-- The same where elements and results are their own raw form. -/
theorem Settles.mapM_id {g : α → Run β} {f : α → Except Error β} {xs : List α}
    (h : ∀ a ∈ xs, Settles (g a) id (f a)) : Settles (xs.mapM g) id (xs.mapM f) := by
  have each : Settles ((xs.map id).mapM g) (List.map id) (xs.mapM f) := Settles.mapM h
  rwa [List.map_id, List.map_id_fun] at each

/-- A step for each element that has the raw form of a result. -/
theorem mapM_map_eq (raw : α → α') {raw' : β → β'} (g : α' → Except Error β')
    {f : α → Except Error β} (h : ∀ a, g (raw a) = (f a).map raw') (xs : List α) :
    (xs.map raw).mapM g = (xs.mapM f).map (List.map raw') := by
  induction xs with
  | nil => rfl
  | cons a xs ih =>
    rw [List.map_cons, List.mapM_cons, List.mapM_cons, h, ih]
    cases f a with
    | error e => rfl
    | ok b => cases xs.mapM f <;> rfl

/-! ### Operations inside their conditions -/

/-- Under its condition, an operation gives what its total form gives. -/
theorem upTo_of_le {xs : List α} {n : Nat} (h : n ≤ xs.length) : upTo xs n = some (xs.take n) :=
  if_pos h

theorem difference_of_le {n m : Nat} (h : m ≤ n) : difference n m = some (n - m) := if_pos h

theorem quotientUp_of_pos {d : Nat} (h : 0 < d) (n : Nat) :
    quotientUp n d = some ((n + d - 1) / d) := if_neg (Nat.ne_of_gt h)

/-! ### Schemas -/

/-- The names before the `i`-th field are those that have been seen. -/
theorem checkNames_eq {fields : List Field} (rest : List Field) :
    ∀ (before : List Field) (seen : List String), fields = before ++ rest →
      (∀ name, name ∈ seen ↔ name ∈ before.map Field.name) →
      checkNames fields before.length rest = settled
        (match firstRepeat seen (rest.map Field.name) with
          | some name => .error (.mismatch (.duplicateField name))
          | none => .ok ()) := by
  induction rest with
  | nil => exact fun _ _ _ _ => rfl
  | cons f rest ih =>
    intro before seen whole same
    -- the fields before this one are a front that the schema has
    have front : upTo fields before.length = some before := by
      rw [upTo_of_le (by simp [whole]), whole, List.take_left]
    rw [checkNames, front, attempt_some_bind, List.map_cons, firstRepeat]
    by_cases again : f.name ∈ seen
    · rw [if_pos ((same _).1 again), if_pos again]
    · rw [if_neg (fun member => again ((same _).2 member)), if_neg again]
      have next := ih (before ++ [f]) (f.name :: seen) (by rw [whole, List.append_cons])
        (by simp [same, or_comm])
      rw [List.length_append] at next
      exact next

/-- **The field check.** It compares each name with those before it, by their places, and these are
places of the list. -/
theorem settles_checkFields (fields : List Field) :
    Settles (checkFields fields) Schema.fields (Schema.ofFields fields) := by
  unfold checkFields Schema.ofFields
  by_cases empty : fields = []
  · rw [if_pos empty, dif_pos empty]
    rfl
  · rw [if_neg empty, dif_neg empty]
    have names := checkNames_eq fields [] [] (List.nil_append fields).symm (by simp)
    rw [List.length_nil] at names
    rw [names]
    -- the names are checked alike, and both sides ask for the same repeat
    split
    · next name again =>
      split
      · next name' again' =>
        rw [again] at again'
        obtain rfl := Option.some.inj again'
        rfl
      · next unique =>
        rw [again] at unique
        cases unique
    · next unique =>
      split
      · next name again =>
        rw [unique] at again
        cases again
      · rfl

theorem stored?_eq (s : Schema) (name : String) :
    stored? s.fields name = (s.stored? name).map Fin.val :=
  List.findIdx?_eq_map_findFinIdx?_val

/-- The qualified fields with a column part are found at the same places. -/
theorem carrying_eq (s : Schema) (column : String) :
    carrying s.fields column = (s.carrying column).map Fin.val := by
  -- a field with its index is a field at its place
  have places : s.fields.zipIdx = (List.finRange s.size).map fun i => (s.field i, i.1) := by
    refine List.ext_getElem (by simp) fun i _ _ => ?_
    simp [Schema.field]
  rw [carrying, places, List.filter_map, List.map_map]
  rfl

/-- A reference resolves to the same place. -/
theorem position_eq (s : Schema) (reference : String) :
    position s.fields reference = (s.position reference).map Fin.val := by
  unfold position Schema.position
  rw [stored?_eq]
  -- the three rules, in their order
  cases s.stored? reference with
  | some i => rfl
  | none =>
    dsimp only [Option.map_none]
    cases Text.splitAtFirst referencePoint reference with
    | some cut =>
      dsimp only
      rw [stored?_eq]
      cases s.stored? (qualify cut.1 cut.2) <;> rfl
    | none =>
      dsimp only
      rw [carrying_eq]
      match s.carrying reference with
      | [] => rfl
      | [_] => rfl
      | _ :: _ :: _ => rfl

/-- The place that a reference resolves to is one of the field list. -/
theorem settles_typeOf (s : Schema) (reference : String) :
    Settles (typeOf s.fields reference) id (s.typeOf reference) := by
  unfold typeOf Schema.typeOf
  rw [position_eq]
  cases s.position reference with
  | error e => rfl
  | ok i =>
    change (attempt s.fields[i.1]? >>= _) = _
    rw [List.getElem?_eq_getElem i.2]
    rfl

/-- The fields up to a width that the schema has. -/
theorem settles_leading (s : Schema) {width : Nat} (h : width ≤ s.size) :
    Settles (leading s.fields width) Schema.fields (s.leading width) := by
  unfold leading Schema.leading
  by_cases whole : width = s.size
  · rw [if_pos whole, if_pos whole]
    rfl
  · rw [if_neg whole, if_neg whole, upTo_of_le h, attempt_some_bind]
    exact settles_checkFields _

theorem settles_qualified (sources : List (String × Schema)) :
    Settles (qualified (sources.map fun p => (p.1, p.2.fields))) Schema.fields
      (Schema.qualified sources) := by
  unfold qualified Schema.qualified
  rw [List.flatMap_map]
  exact settles_checkFields _

/-! ### Rows -/

/-- A row is made under the same condition, and with the same error otherwise. -/
theorem ofValues_eq (s : Schema) (values : List Value) :
    ofValues s.fields values = (Row.ofValues s values).map Row.raw := by
  unfold ofValues Row.ofValues
  by_cases fits : values.length = s.size
  · rw [if_pos fits, dif_pos fits]
    rfl
  · rw [if_neg fits, dif_neg fits]
    rfl

theorem join_eq (left : RelEngine.Row) (s : Schema) (right : RelEngine.Row) :
    join left.raw right.raw s.fields = (left.join right s).map Row.raw :=
  ofValues_eq s (left.values ++ right.values)

/-- A row has a value at every place of its schema. -/
theorem settles_get (r : RelEngine.Row) (reference : String) :
    Settles (get r.raw reference) id (r.get reference) := by
  unfold get RelEngine.Row.get
  change Settles (settled (position r.schema.fields reference) >>= _) _ _
  rw [position_eq]
  cases r.schema.position reference with
  | error e => rfl
  | ok i =>
    change attempt r.values[i.1]? = _
    rw [List.getElem?_eq_getElem (by rw [r.arity]; exact i.2)]
    rfl

section Build

variable {schema : Schema} {attributes : List String}

/-- As long as there is a place for the literal, it goes to the same place. -/
theorem target_eq {i : Nat} (h : i < schema.size) :
    target schema.fields attributes i = (Row.target schema attributes i).map Fin.val := by
  unfold target Row.target
  cases attributes[i]? with
  | some name => exact position_eq schema name
  | none =>
    dsimp only
    rw [dif_pos h]
    rfl

/-- A value is put at a place that there is. -/
theorem put_ofFn (slots : Row.Slots schema) (place : Fin schema.size) (v : Value) :
    put (List.ofFn slots) place (some v) = some (List.ofFn (slots.fill place v)) := by
  rw [put, if_pos (by simp)]
  refine congrArg _ (List.ext_getElem (by simp) fun j _ there => ?_)
  rw [List.length_ofFn] at there
  rw [List.getElem_set, List.getElem_ofFn, List.getElem_ofFn, Row.Slots.fill]
  -- the slot that was filled, and all others
  by_cases here : place.1 = j
  · rw [if_pos here, if_pos (Fin.ext here.symm)]
  · rw [if_neg here, if_neg (fun same => here (congrArg Fin.val same).symm)]

/-- **Reading literals into places.** The literals that are left have places left. -/
theorem settles_assign (literals : List String) :
    ∀ {i : Nat} (slots : Row.Slots schema), i + literals.length ≤ schema.size →
      Settles (assign schema.fields attributes i (List.ofFn slots) literals) List.ofFn
        (Row.assign schema attributes i slots literals) := by
  induction literals with
  | nil => exact fun _ _ => rfl
  | cons literal rest ih =>
    intro i slots left
    rw [List.length_cons] at left
    -- the literal has a place of its own, and one named by an attribute is a place of the schema
    rw [assign, Row.assign, target_eq (by omega)]
    cases Row.target schema attributes i with
    | error e => rfl
    | ok place =>
      have field : schema.fields[place.1]? = some (schema.field place) :=
        List.getElem?_eq_getElem place.2
      have slot : (List.ofFn slots)[place.1]? = some (slots place) := by
        simp
      change Settles (attempt schema.fields[place.1]? >>= _) _ _
      rw [field, attempt_some_bind, slot, attempt_some_bind, ok_bind]
      by_cases taken : (slots place).isSome
      · rw [if_pos taken, if_pos taken]
        rfl
      · rw [if_neg taken, if_neg taken]
        cases (schema.field place).type.read (schema.field place).name literal with
        | error e => rfl
        | ok v =>
          rw [settled_ok_bind, ok_bind, put_ofFn, attempt_some_bind]
          exact ih (slots.fill place v) (by omega)

/-- The slots are collected field by field. -/
theorem collect_eq (slots : Row.Slots schema) :
    collect schema.fields (List.ofFn slots) = Row.collect slots := by
  have places : (List.ofFn slots).zip schema.fields
      = (List.finRange schema.size).map fun i => (slots i, schema.field i) := by
    refine List.ext_getElem (by simp) fun i _ _ => ?_
    simp [Schema.field]
  rw [collect, places, List.mapM_map]
  rfl

/-- **Building a row.** Both counts have been compared before the first literal is placed, so none
of them is looked for in vain. -/
theorem settles_build (schema : Schema) (attributes literals : List String) :
    Settles (build schema.fields attributes literals) Row.raw
      (Row.build schema attributes literals) := by
  unfold build Row.build
  dsimp only
  by_cases unequal : (!attributes.isEmpty && attributes.length != literals.length) = true
  · rw [if_pos unequal, if_pos unequal]
    rfl
  rw [if_neg unequal, if_neg unequal]
  by_cases misfit : (literals.length != schema.size) = true
  · rw [if_pos misfit, if_pos misfit]
    rfl
  rw [if_neg misfit, if_neg misfit]
  -- as many literals as fields: every literal has a place
  have fits : literals.length = schema.size := by
    simpa using misfit
  have none : List.replicate schema.fields.length (none : Option Value)
      = List.ofFn (fun _ : Fin schema.size => none) := by
    simp
  rw [none]
  refine (settles_assign literals _ (by omega)).bind fun slots _ => ?_
  rw [collect_eq]
  cases Row.collect slots with
  | error e => rfl
  | ok values =>
    rw [settled_ok_bind, ofValues_eq]
    rfl

end Build

/-! ### Tables and memory -/

/-- A schema has a field to divide by. -/
theorem rowsPerBlock_eq (r : Relation) : r.raw.rowsPerBlock = some r.rowsPerBlock := by
  have fitting : quotient slotsPerBlock r.schema.fields.length
      = some (slotsPerBlock / r.schema.size) := if_neg (Nat.ne_of_gt r.schema.size_pos)
  change (quotient slotsPerBlock r.schema.fields.length >>= _) = _
  rw [fitting]
  rfl

/-- A block holds a row to divide by. -/
theorem blockCount_eq (r : Relation) : r.raw.blockCount = some r.blockCount := by
  unfold Table.blockCount
  rw [rowsPerBlock_eq]
  change quotientUp (r.rows.map Row.raw).length r.rowsPerBlock = _
  rw [List.length_map, quotientUp_of_pos r.rowsPerBlock_pos]
  rfl

/-- The remainder is defined, since a block holds one row at least. -/
theorem lastBlockPartial_eq (r : Relation) : r.raw.lastBlockPartial = some r.lastBlockPartial := by
  have last : remainder r.rows.length r.rowsPerBlock = some (r.rows.length % r.rowsPerBlock) :=
    if_neg (Nat.ne_of_gt r.rowsPerBlock_pos)
  unfold Table.lastBlockPartial
  rw [rowsPerBlock_eq]
  change (remainder (r.rows.map Row.raw).length r.rowsPerBlock >>= _) = _
  rw [List.length_map, last]
  rfl

/-- Memory has a frame to take away, and another one to divide by. -/
theorem passes_eq (m : Memory) (outerBlocks : Nat) :
    passes m.frames outerBlocks = some (m.passes outerBlocks) := by
  have outer : outerFrames m.frames = some m.outerFrames :=
    difference_of_le (Nat.le_trans (by decide) m.two_le_frames)
  unfold passes
  rw [outer]
  change (quotientUp outerBlocks m.outerFrames >>= _) = _
  rw [quotientUp_of_pos m.outerFrames_pos]
  rfl

-- with one frame nothing is left to divide by, and with none nothing to take away
example : passes 1 3 = none ∧ passes 0 3 = none := ⟨rfl, rfl⟩

/-- No more rows are left than there were. -/
theorem removeWhere_eq (r : Relation) {condition : RelEngine.Row → Except Error Bool}
    {condition' : Row → Run Bool}
    (h : ∀ row ∈ r.rows, Settles (condition' row.raw) id (condition row)) :
    r.raw.removeWhere condition'
      = some ((r.removeWhere condition).1.raw, (r.removeWhere condition).2) := by
  have scan : ((r.rows.map Row.raw).mapM condition').run
      = some ((r.rows.mapM condition).map (List.map id)) := Settles.mapM h
  unfold Table.removeWhere Relation.removeWhere
  change (((r.rows.map Row.raw).mapM condition').run >>= _) = _
  rw [scan]
  cases r.rows.mapM condition with
  | error e => rfl
  | ok marks =>
    -- the rows that are kept are the same, and so is their number
    have kept : ((r.rows.map Row.raw).zip marks).filter (fun p => !p.2)
        = ((r.rows.zip marks).filter fun p => !p.2).map (Prod.map Row.raw id) := by
      rw [List.zip_map_left, List.filter_map]
      rfl
    have fewer : ((r.rows.zip marks).filter fun p => !p.2).length ≤ r.rows.length :=
      calc ((r.rows.zip marks).filter fun p => !p.2).length
          ≤ (r.rows.zip marks).length := List.length_filter_le _ _
        _ ≤ r.rows.length := by
          rw [List.length_zip]
          exact Nat.min_le_left _ _
    change (difference (r.rows.map Row.raw).length (((r.rows.map Row.raw).zip (marks.map id)).filter
      fun p => !p.2).length >>= _) = _
    rw [List.map_id, kept, List.length_map, List.length_map, difference_of_le fewer]
    change some _ = some _
    simp [Relation.raw, kept]

/-- A table is found under the same names. -/
theorem lookup_eq (c : Catalog) (name : String) :
    c.raw.lookup name = (c.find? name).map Relation.raw := by
  unfold Catalog.raw Catalog.find?
  induction c.entries with
  | nil => rfl
  | cons p entries ih =>
    rw [List.map_cons, List.lookup_cons, List.lookup_cons]
    cases name == p.1 with
    | true => rfl
    | false => exact ih

/-- A table is found in both catalogs or in neither. -/
theorem find_eq (c : Catalog) (name : String) :
    Tables.find c.raw name = (c.find name).map Relation.raw := by
  unfold Tables.find Catalog.find
  rw [lookup_eq]
  cases c.find? name <;> rfl

/-! ### Conditions -/

section Conditions

variable (row : RelEngine.Row)

/-- An operand is compared alike, with a column or without. -/
theorem settles_denote (operand : String) :
    Settles (denote row.raw operand) id (Condition.denote row operand) := by
  unfold denote Condition.denote
  rw [(settles_get row operand).run_eq, Except.map_id]
  cases row.get operand with
  | ok v => rfl
  | error e => cases e <;> rfl

/-- So is a condition, up to the same point. -/
theorem settles_holds (c : Condition) : Settles (holds row.raw c) id (c.holds row) := by
  -- on the condition, along the side that is asked first
  induction c with
  | equal l r =>
    refine (settles_denote row l).bind fun left _ => ?_
    exact (settles_denote row r).bind fun right _ => rfl
  | and a b iha ihb =>
    refine iha.bind fun truth _ => ?_
    cases truth with
    | true => exact ihb
    | false => rfl
  | or a b iha ihb =>
    refine iha.bind fun truth _ => ?_
    cases truth with
    | true => rfl
    | false => exact ihb

theorem settles_admits (selection : Option Condition) :
    Settles (admits selection row.raw) id (Condition.admits selection row) := by
  cases selection with
  | none => rfl
  | some c => exact settles_holds row c

end Conditions

/-! ### Queries -/

/-- Rows are filtered alike. -/
theorem settles_keepRows {condition : RelEngine.Row → Except Error Bool}
    {condition' : Row → Run Bool} (h : ∀ row, Settles (condition' row.raw) id (condition row))
    (rows : List RelEngine.Row) :
    Settles (keepRows condition' (rows.map Row.raw)) (List.map Row.raw)
      (RelEngine.keepRows condition rows) := by
  induction rows with
  | nil => rfl
  | cons row rest ih =>
    refine (h row).bind fun kept _ => ?_
    cases kept with
    | true => exact ih.bind fun _ _ => rfl
    | false => exact ih

/-- And their repeats are dropped alike. -/
theorem settles_firstRows {key : RelEngine.Row → Except Error (List Value)}
    {key' : Row → Run (List Value)} (h : ∀ row, Settles (key' row.raw) id (key row))
    (rows : List RelEngine.Row) : ∀ seen,
    Settles (firstRows key' seen (rows.map Row.raw)) (List.map Row.raw)
      (RelEngine.firstRows key seen rows) := by
  induction rows with
  | nil => exact fun _ => rfl
  | cons row rest ih =>
    intro seen
    refine (h row).bind fun k _ => ?_
    by_cases again : k ∈ seen
    · simp only [id, if_pos again]
      exact ih seen
    · simp only [id, if_neg again]
      exact (ih (k :: seen)).bind fun _ _ => rfl

/-- **The rounds of the nested loops.** The width reached and the widths of the tables that are left
fit into the schema, so that every round finds its fields. -/
theorem settles_nestedLoops {schema : Schema} (tables : List Relation) :
    ∀ {width : Nat} (rows : List RelEngine.Row),
      width + (tables.map fun r => r.schema.size).sum ≤ schema.size →
      Settles (nestedLoops schema.fields width (rows.map Row.raw) (tables.map Relation.raw))
        (List.map Row.raw) (RelEngine.nestedLoops schema width rows tables) := by
  -- on the tables that are left, for which there is still room in the schema
  induction tables with
  | nil => exact fun _ _ => rfl
  | cons r rest ih =>
    intro width rows fits
    rw [List.map_cons, List.sum_cons] at fits
    have room : width + r.schema.size ≤ schema.size := by omega
    refine (settles_leading schema room).bind fun reached _ => ?_
    -- a round joins rows, which is checked in the same way on both sides
    have next : Settles (settled ((rows.map Row.raw).mapM fun left =>
          (r.rows.map Row.raw).mapM fun right => join left right reached.fields))
        (List.map (List.map Row.raw))
        (rows.mapM fun left : RelEngine.Row => r.rows.mapM fun right => left.join right reached) :=
      congrArg settled (mapM_map_eq Row.raw _ (fun left => mapM_map_eq Row.raw
        (fun right => join left.raw right reached.fields) (join_eq left reached) r.rows) rows)
    refine next.bind fun product _ => ?_
    rw [← List.map_flatten]
    change Settles (nestedLoops schema.fields (width + r.schema.size) _ _) _ _
    exact ih product.flatten (by omega)

/-- The schema of the sources has room for the widths of all tables. -/
theorem settles_sourceRows (tables : List Relation) :
    Settles (sourceRows (tables.map Relation.raw)) (List.map Row.raw)
      (Query.sourceRows tables) := by
  match tables with
  | [] => rfl
  | [only] => rfl
  | outer :: inner :: inners =>
    have sources : (((outer :: inner :: inners).map Relation.raw).map fun t => (t.name, t.fields))
        = ((outer :: inner :: inners).map fun r => (r.name, r.schema)).map
            fun p => (p.1, p.2.fields) := by
      rw [List.map_map, List.map_map]
      rfl
    have qualifies := settles_qualified ((outer :: inner :: inners).map fun r => (r.name, r.schema))
    rw [← sources] at qualifies
    refine qualifies.bind fun schema made => ?_
    -- the qualified schema is as wide as all tables together
    have total := Schema.size_qualified made
    rw [List.flatMap_map, List.length_flatMap, List.map_cons, List.sum_cons] at total
    have room : outer.schema.size ≤ schema.size := by
      rw [total]
      exact Nat.le_add_right _ _
    refine (settles_leading schema room).bind fun head _ => ?_
    have rehomed : Settles (settled ((outer.rows.map Row.raw).mapM fun row =>
          withFields row head.fields)) (List.map Row.raw)
        (outer.rows.mapM fun row => row.withSchema head) :=
      congrArg settled (mapM_map_eq Row.raw (fun row => withFields row head.fields)
        (fun row => ofValues_eq head row.values) outer.rows)
    refine rehomed.bind fun first _ => ?_
    exact settles_nestedLoops (inner :: inners) first (le_of_eq total.symm)

/-- **The reads of a query** divide by the rows in a block and by the frames but one, and neither
is zero. -/
theorem reads_eq (m : Memory) (tables : List Relation) :
    reads m.frames (tables.map Relation.raw) = some (Query.reads m tables) := by
  match tables with
  | [] => rfl
  | [only] =>
    change (only.raw.blockCount >>= _) = _
    rw [blockCount_eq]
    rfl
  | outer :: inner :: inners =>
    -- the block counts of all inner tables are defined
    have scans : ∀ rs : List Relation, ((rs.map Relation.raw).mapM fun t => do
          let blocks ← t.blockCount
          some (blocks * m.passes outer.blockCount))
        = some (rs.map fun r => r.blockCount * m.passes outer.blockCount) := by
      intro rs
      induction rs with
      | nil => rfl
      | cons r rs ih =>
        rw [List.map_cons, List.mapM_cons, ih, blockCount_eq]
        rfl
    change (outer.raw.blockCount >>= fun blocks => passes m.frames blocks >>= fun times =>
      (((inner :: inners).map Relation.raw).mapM fun t => do
        let blocks ← t.blockCount
        some (blocks * times)) >>= fun scans => some (blocks :: scans)) = _
    rw [blockCount_eq, Option.bind_eq_bind, Option.bind_some, passes_eq, Option.bind_eq_bind,
      Option.bind_some, scans]
    rfl

theorem settles_key (q : Query) (row : RelEngine.Row) :
    Settles (key q row.raw) id (q.key row) := by
  unfold key Query.key
  split
  · rfl
  · exact Settles.mapM_id fun reference _ => settles_get row reference

/-- The rows of a query, from the cross product to the repeats. -/
theorem settles_rows (q : Query) (tables : List Relation) :
    Settles (rows q (tables.map Relation.raw)) (List.map Row.raw) (q.rows tables) := by
  refine (settles_sourceRows tables).bind fun source _ => ?_
  refine (settles_keepRows (fun row => settles_admits row q.selection) source).bind fun kept _ => ?_
  cases q.distinct with
  | true => exact settles_firstRows (settles_key q) kept []
  | false => rfl

/-- **A query** looks its tables up, charges its reads and gives its rows. -/
theorem execute_eq (q : Query) (c : Catalog) (m : Memory) :
    execute q c.raw m.frames = some
      ⟨(q.execute c m).events, (q.execute c m).rows.map (List.map Row.raw)⟩ := by
  -- the tables are looked up one by one
  have relations : q.tables.mapM (Tables.find c.raw)
      = (q.relations c).map (List.map Relation.raw) := by
    have each : (q.tables.map id).mapM (Tables.find c.raw)
        = (q.tables.mapM c.find).map (List.map Relation.raw) :=
      mapM_map_eq id _ (find_eq c) q.tables
    rwa [List.map_id] at each
  unfold execute Query.execute
  rw [relations]
  cases q.relations c with
  | error e => rfl
  | ok tables =>
    change (reads m.frames (tables.map Relation.raw) >>= fun scans =>
      (rows q (tables.map Relation.raw)).run >>= _) = _
    rw [reads_eq, (settles_rows q tables).run_eq]
    dsimp only
    cases q.rows tables with
    | error e => rfl
    | ok rows =>
      change some _ = some _
      rw [List.length_map]
      rfl

/-! ### Printed tables -/

/-- The type and the value of a cell are looked up one after the other, at the same place. -/
theorem settles_fieldText (row : RelEngine.Row) (reference : String) :
    Settles (fieldText row.raw reference) id (Renderer.fieldText row reference) := by
  refine (settles_typeOf row.schema reference).bind fun type _ => ?_
  refine (settles_get row reference).bind fun value _ => ?_
  exact settles_id_iff.2 rfl

theorem settles_line (r : Renderer) (row : RelEngine.Row) (keys : List String) :
    Settles (line r row.raw keys) id (r.line row keys) := by
  -- whatever the list stands for, each text is fetched alike
  have texts : ∀ references : List String, Settles (references.mapM (fieldText row.raw)) id
      (references.mapM (Renderer.fieldText row)) :=
    fun _ => Settles.mapM_id fun reference _ => settles_fieldText row reference
  exact (texts _).bind fun _ _ => rfl

/-- A result is laid out alike. -/
theorem settles_table (r : Renderer) (rows : List RelEngine.Row) (projection : Projection) :
    Settles (table r (rows.map Row.raw) projection) id (r.table rows projection) := by
  cases rows with
  | nil => rfl
  | cons sample rest =>
    have lines : Settles (((sample :: rest).map Row.raw).mapM fun row => line r row projection.keys)
        (List.map id) ((sample :: rest).mapM fun row => r.line row projection.keys) :=
      Settles.mapM fun row _ => settles_line r row projection.keys
    refine lines.bind fun lines _ => ?_
    rw [List.map_id, settles_id_iff, List.length_map]
    rfl

/-! ### Statements -/

/-- Writing a table back does not touch the others. -/
theorem raw_replace (c : Catalog) (name : String) (r : Relation) :
    Tables.replace c.raw name r.raw = (c.replace name r).raw := by
  unfold Tables.replace Catalog.replace Catalog.raw
  rw [List.map_map, List.map_map]
  refine List.map_congr_left fun p _ => ?_
  by_cases here : p.1 = name
  · simp [here]
  · simp [here]

theorem raw_erase (c : Catalog) (name : String) : Tables.erase c.raw name = (c.erase name).raw := by
  unfold Tables.erase Catalog.erase Catalog.raw
  rw [List.filter_map]
  rfl

/-- A new table is put to the end of the catalog, or refused. -/
theorem settles_register (c : Catalog) (name : String) (fields : List Field) :
    Settles (Tables.register c.raw name fields) Catalog.raw (c.register name fields) := by
  unfold Tables.register Catalog.register
  rw [lookup_eq]
  split
  · next t taken =>
    split
    · rfl
    · next free =>
      rw [free] at taken
      cases taken
  · next absent =>
    split
    · next r there =>
      rw [there] at absent
      cases absent
    · next free =>
      rw [settles_checkFields fields]
      cases Schema.ofFields fields with
      | error e => rfl
      | ok schema =>
        change settled (.ok (c.raw ++ [(name, ⟨name, schema.fields, []⟩)])) = _
        -- a fresh table has no rows to forget the schema of
        have added : (c.insert name (.empty name schema) free).raw
            = c.raw ++ [(name, ⟨name, schema.fields, []⟩)] := by
          simp [Catalog.raw, Catalog.insert, Relation.raw, Relation.empty]
        rw [← added]
        rfl

theorem runCreate_eq (c : Catalog) (table : String) (fields : List Field) :
    Tables.runCreate c.raw table fields = some (c.runCreate table fields).raw := by
  unfold Tables.runCreate Catalog.runCreate
  rw [(settles_register c table fields).run_eq]
  cases c.register table fields <;> rfl

/-- An insertion divides by the rows in a block when it looks at the last one. -/
theorem runInsert_eq (c : Catalog) (table : String) (attributes literals : List String) :
    Tables.runInsert c.raw table attributes literals
      = some (c.runInsert table attributes literals).raw := by
  unfold Tables.runInsert Catalog.runInsert
  rw [find_eq]
  cases c.find table with
  | error e => rfl
  | ok r =>
    change ((build r.schema.fields attributes literals).run >>= _) = _
    rw [(settles_build r.schema attributes literals).run_eq]
    dsimp only
    cases Row.build r.schema attributes literals with
    | error e => rfl
    | ok row =>
      -- the new row is put to the end on both sides
      have appended : (r.append row).raw = { r.raw with rows := r.raw.rows ++ [row.raw] } := by
        simp [Relation.append, Relation.raw]
      change (r.raw.lastBlockPartial >>= _) = _
      rw [lastBlockPartial_eq]
      change some _ = some _
      rw [← appended, raw_replace]
      rfl

/-- A deletion counts the blocks before and after. -/
theorem runDelete_eq (c : Catalog) (table : String) (selection : Option Condition) :
    Tables.runDelete c.raw table selection = some (c.runDelete table selection).raw := by
  unfold Tables.runDelete Catalog.runDelete
  rw [find_eq]
  cases c.find table with
  | error e => rfl
  | ok r =>
    change (r.raw.blockCount >>= fun before => r.raw.removeWhere (admits selection) >>= _) = _
    rw [blockCount_eq, removeWhere_eq r fun row _ => settles_admits row selection]
    dsimp only
    -- only a scan that comes to its end has the blocks counted again
    cases (r.removeWhere (Condition.admits selection)).2 with
    | error e =>
      change some _ = some _
      rw [raw_replace]
      rfl
    | ok n =>
      change ((r.removeWhere (Condition.admits selection)).1.raw.blockCount >>= _) = _
      rw [blockCount_eq]
      change some _ = some _
      rw [raw_replace]
      rfl

theorem runDrop_eq (c : Catalog) (table : String) :
    Tables.runDrop c.raw table = (c.runDrop table).raw := by
  unfold Tables.runDrop Catalog.runDrop Catalog.drop
  rw [find_eq]
  cases c.find table with
  | error e => rfl
  | ok r =>
    change (⟨Tables.erase c.raw table,
      [.dropping table, .dropped table (r.rows.map Row.raw).length], .ok []⟩ : Effect) = _
    rw [raw_erase, List.length_map]
    rfl

theorem runSelect_eq (c : Catalog) (m : Memory) (r : Renderer) (q : Query) :
    Tables.runSelect c.raw m.frames r q = some (c.runSelect m r q).raw := by
  unfold Tables.runSelect Catalog.runSelect
  rw [execute_eq]
  dsimp only
  cases (q.execute c m).rows with
  | error e => rfl
  | ok rows =>
    change ((table r (rows.map Row.raw) q.projection).run >>= _) = _
    rw [(settles_table r rows q.projection).run_eq, Except.map_id]
    rfl

/-- **Every statement** runs without an undefined step. -/
theorem run_eq (c : Catalog) (m : Memory) (r : Renderer) (s : Statement) :
    Tables.run c.raw m.frames r s = some (c.run m r s).raw := by
  cases s with
  | create table fields => exact runCreate_eq c table fields
  | insert table attributes literals => exact runInsert_eq c table attributes literals
  | select q => exact runSelect_eq c m r q
  | delete table selection => exact runDelete_eq c table selection
  | drop table => exact congrArg some (runDrop_eq c table)

/-! ### The engine -/

/-- The disk counters never go down. -/
theorem since_eq (d : Disk) (events : List Event) :
    since (d.after events).counters d.counters
      = some ((d.after events).counters.since d.counters) := by
  unfold since
  rw [difference_of_le (by rw [d.ios_after]; exact Nat.le_add_right _ _)]
  rfl

/-- **A tree** is performed so, and the counter of the disk has not gone back. -/
theorem perform_eq (e : RelEngine.Engine) (tree : Tree) :
    e.raw.perform tree = some (e.perform tree).raw := by
  unfold Engine.perform RelEngine.Engine.perform
  cases Statement.ofTree tree with
  | error err =>
    change (since (e.disk.after []).counters e.disk.counters >>= _) = _
    rw [since_eq]
    rfl
  | ok s =>
    change (Tables.run e.catalog.raw e.memory.frames e.renderer s >>= _) = _
    rw [run_eq]
    change (since (e.disk.after _).counters e.disk.counters >>= _) = _
    rw [since_eq]
    rfl

/-- And a sequence of trees, one after the other. -/
theorem performs_eq (e : RelEngine.Engine) (trees : List Tree) :
    e.raw.performs trees = some (e.performs trees).raw := by
  induction trees generalizing e with
  | nil => rfl
  | cons tree trees ih =>
    -- what is left of the state is raw again
    rw [Engine.performs, perform_eq]
    exact ih (e.perform tree).engine

theorem ofSettings_eq (s : Settings) :
    Engine.ofSettings s = (RelEngine.Engine.ofSettings s).raw := rfl

end Raw

namespace Engine

/-- **No operation is hit where it is not defined.** Start the raw engine from any settings, with
any number of memory blocks, and give it the trees of any calls. It arrives at the raw data of the
engine that these calls lead to. From there any tree does to it what it does to the engine. So on
the way and in this last step no divisor is zero, no frame is taken away that is not there, no place
is outside of its row, its schema or the slots of a new row, and no front of a schema is longer than
the schema. -/
theorem no_undefined_operation (s : Settings) (cs : List Call) (tree : Tree) :
    let e := (ofSettings s).calls cs
    (Raw.Engine.ofSettings s).performs (cs.flatMap Call.trees) = some e.raw ∧
      e.raw.perform tree = some (e.perform tree).raw := by
  intro e
  constructor
  · change _ = some ((ofSettings s).calls cs).raw
    rw [calls_eq_performs, Raw.ofSettings_eq, Raw.performs_eq]
  · exact Raw.perform_eq e tree

end Engine

end RelEngine
