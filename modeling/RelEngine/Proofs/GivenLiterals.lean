import Mathlib.Data.Fintype.Card
import RelEngine.Proofs.StatementErrors
import RelEngine.Proofs.StoreInvariant

/-!
# Which literals make a row

A row is built by a loop that puts one literal after the other into a place of its own, wherever the
attribute beside it says. What comes of it does not depend on the order. Each pair of an attribute
and a literal stands for an **entry**, that is the place of a field and the value that the literal is
read as there (`Row.entry`), and the loop succeeds exactly when all pairs have entries and no two of
them share a place (`Row.assign_eq_ok_iff`). This is the invariant of the loop, with the places that
are taken already.

As many entries as fields, and no place twice, leave no place empty. So a row that is described is
always complete, and the check for missing values behind the loop never fails. Without attributes,
the literals are as good as given beside the schema's own names (`Row.build_nil`).

* `Row.build_pairs_eq_ok_iff` — the row of some pairs, through their entries;
* `Row.build_assigns_literals` — which literals make a row, what row they make, and that their order
  does not matter.
-/

namespace RelEngine.Row

variable {schema : Schema} {attributes literals : List String} {pairs : List (String × String)}

/-! ### What is asked of literals -/

/-- **The field of a literal**: the `i`-th literal is for the field that the `i`-th attribute resolves
to or, without attributes, for the `i`-th field. -/
def IsFor (schema : Schema) (attributes : List String) (i : Nat) (place : Fin schema.size) : Prop :=
  if attributes = [] then place.1 = i
  else ∃ name, attributes[i]? = some name ∧ schema.position name = .ok place

/-- **Literals that describe a row.** -/
structure Describes (schema : Schema) (attributes literals : List String) : Prop where
  /-- There is a literal for each field. -/
  complete : literals.length = schema.size
  /-- There are no attributes, or as many as literals. -/
  beside : attributes = [] ∨ attributes.length = literals.length
  /-- Every attribute resolves to a field. -/
  resolved : ∀ name ∈ attributes, ∃ place, schema.position name = .ok place
  /-- No two attributes resolve to the same field. -/
  apart : (attributes.map schema.position).Nodup
  /-- Every literal is accepted by its field. -/
  accepted : ∀ i literal place, literals[i]? = some literal → IsFor schema attributes i place →
    ∃ v, (schema.field place).type.read (schema.field place).name literal = .ok v

/-! ### Entries -/

/-- **The entry of an attribute and a literal**: the place of the field, and the value that the
literal is read as for it. -/
def entry (schema : Schema) (pair : String × String) : Except Error (Fin schema.size × Value) := do
  let place ← schema.position pair.1
  let v ← (schema.field place).type.read (schema.field place).name pair.2
  .ok (place, v)

/-- A pair gives a value to the place that its name resolves to, if the literal can be read there.
-/
theorem entry_eq_ok_iff {pair : String × String} {given : Fin schema.size × Value} :
    entry schema pair = .ok given ↔ schema.position pair.1 = .ok given.1 ∧
      (schema.field given.1).type.read (schema.field given.1).name pair.2 = .ok given.2 := by
  obtain ⟨place, v⟩ := given
  constructor
  · -- the place of the name is found first, then the literal is read for the field there
    intro h
    obtain ⟨_, position, h⟩ := bind_eq_ok_iff.1 h
    obtain ⟨_, read, h⟩ := bind_eq_ok_iff.1 h
    obtain ⟨rfl, rfl⟩ := Prod.mk.inj (Except.ok.inj h)
    exact ⟨position, read⟩
  · rintro ⟨position, read⟩
    exact bind_eq_ok_iff.2 ⟨place, position, bind_eq_ok_iff.2 ⟨v, read, rfl⟩⟩

/-- The places of entries are what the attributes resolve to. -/
theorem positions_of_entries {given : List (Fin schema.size × Value)}
    (entries : List.Forall₂ (fun pair g => entry schema pair = .ok g) pairs given) :
    (pairs.map Prod.fst).map schema.position = (given.map Prod.fst).map .ok := by
  induction entries with
  | nil => rfl
  | cons here _ ih =>
    rw [List.map_cons, List.map_cons, List.map_cons, List.map_cons, ih, (entry_eq_ok_iff.1 here).1]

/-- Entries do not share a place exactly when the attributes do not share a field. -/
theorem nodup_places_iff {given : List (Fin schema.size × Value)}
    (entries : List.Forall₂ (fun pair g => entry schema pair = .ok g) pairs given) :
    (given.map Prod.fst).Nodup ↔ ((pairs.map Prod.fst).map schema.position).Nodup := by
  rw [positions_of_entries entries]
  exact (List.nodup_map_iff fun _ _ => Except.ok.inj).symm

/-- Entries that do not share a place and are as many as the places leave none of them empty. -/
theorem exists_entry {n : Nat} {given : List (Fin n × Value)} (apart : (given.map Prod.fst).Nodup)
    (full : given.length = n) (place : Fin n) : ∃ v, (place, v) ∈ given := by
  -- a set of places that is as large as all of them has them all
  have all : (given.map Prod.fst).toFinset = Finset.univ := by
    apply Finset.eq_univ_of_card
    rw [List.toFinset_card_of_nodup apart, List.length_map, full, Fintype.card_fin]
  have member : place ∈ given.map Prod.fst := by
    rw [← List.mem_toFinset, all]
    exact Finset.mem_univ place
  obtain ⟨⟨_, v⟩, there, rfl⟩ := List.mem_map.1 member
  exact ⟨v, there⟩

/-! ### The loop -/

/-- The first literal goes to a free place, where it is read, and the others follow. -/
theorem assign_cons_eq_ok_iff {rest : List String} {literal : String} {i : Nat}
    {slots filled : Slots schema} :
    assign schema attributes i slots (literal :: rest) = .ok filled ↔
      ∃ place v, target schema attributes i = .ok place ∧ slots place = none ∧
        (schema.field place).type.read (schema.field place).name literal = .ok v ∧
        assign schema attributes (i + 1) (slots.fill place v) rest = .ok filled := by
  refine ⟨assign_cons_eq_ok, ?_⟩
  rintro ⟨place, v, target, free, read, assigned⟩
  unfold assign
  rw [target, ok_bind, free]
  exact bind_eq_ok_iff.2 ⟨v, read, assigned⟩

/-- A slot stays free if it was free and is not the one that is filled. -/
theorem fill_eq_none_iff {slots : Slots schema} {place j : Fin schema.size} {v : Value} :
    slots.fill place v j = none ↔ j ≠ place ∧ slots j = none := by
  unfold Slots.fill
  by_cases h : j = place <;> simp [h]

/-- A place that was free holds the value that was put there, and the others what they held. -/
theorem fill_eq_some_iff {slots : Slots schema} {place j : Fin schema.size} {v w : Value}
    (free : slots place = none) :
    slots.fill place v j = some w ↔ slots j = some w ∨ (j, w) = (place, v) := by
  unfold Slots.fill
  by_cases h : j = place
  · subst h
    simp [free, eq_comm]
  · simp [h]

/-- **The loop over literals** succeeds iff the pairs have entries, none of them in a place that is
taken or in the place of another one. Afterwards the places hold what they held before, and the
entries. -/
theorem assign_eq_ok_iff {filled : Slots schema} :
    ∀ {i : Nat} {slots : Slots schema}, attributes.drop i = pairs.map Prod.fst →
      (assign schema attributes i slots (pairs.map Prod.snd) = .ok filled ↔
        ∃ given, pairs.mapM (entry schema) = .ok given ∧ (given.map Prod.fst).Nodup ∧
          (∀ g ∈ given, slots g.1 = none) ∧
          ∀ j v, filled j = some v ↔ slots j = some v ∨ (j, v) ∈ given) := by
  induction pairs with
  | nil =>
    intro i slots _
    constructor
    · intro assigned
      cases assigned
      exact ⟨[], rfl, List.nodup_nil, by simp, by simp⟩
    · rintro ⟨given, none, -, -, same⟩
      obtain rfl := Except.ok.inj none
      have unchanged : slots = filled := by
        funext j
        ext v
        simp [same]
      rw [unchanged]
      rfl
  | cons pair pairs ih =>
    intro i slots names
    have rest : attributes.drop (i + 1) = pairs.map Prod.fst := by
      rw [← List.tail_drop, names]
      rfl
    have here : target schema attributes i = schema.position pair.1 := by
      have there : attributes[i]? = some pair.1 := by
        rw [← List.head?_drop, names]
        rfl
      rw [target, there]
    rw [List.map_cons, assign_cons_eq_ok_iff, here]
    constructor
    · rintro ⟨place, v, position, free, read, assigned⟩
      obtain ⟨given, entries, apart, open', filled⟩ := (ih rest).1 assigned
      -- the other entries stay out of the place that is filled first
      have others : ∀ g ∈ given, g.1 ≠ place ∧ slots g.1 = none := fun g hg =>
        fill_eq_none_iff.1 (open' g hg)
      refine ⟨(place, v) :: given, ?_, ?_, ?_, ?_⟩
      · have first : entry schema pair = .ok (place, v) := entry_eq_ok_iff.2 ⟨position, read⟩
        rw [List.mapM_cons, first, entries]
        rfl
      · rw [List.map_cons, List.nodup_cons]
        refine ⟨fun member => ?_, apart⟩
        obtain ⟨g, hg, same⟩ := List.mem_map.1 member
        exact (others g hg).1 same
      · rintro g hg
        rcases List.mem_cons.1 hg with rfl | hg
        · exact free
        · exact (others g hg).2
      · intro j w
        rw [filled, fill_eq_some_iff free, or_assoc, List.mem_cons]
    · -- the first entry goes to its place, and keeps the others out of it
      rintro ⟨given, entries, apart, open', filled⟩
      rw [List.mapM_cons] at entries
      obtain ⟨⟨place, v⟩, first, entries⟩ := bind_eq_ok_iff.1 entries
      obtain ⟨given', others, same⟩ := bind_eq_ok_iff.1 entries
      obtain rfl : (place, v) :: given' = given := Except.ok.inj same
      obtain ⟨position, read⟩ := entry_eq_ok_iff.1 first
      have free : slots place = none := open' (place, v) (by simp)
      rw [List.map_cons, List.nodup_cons] at apart
      refine ⟨place, v, position, free, read, (ih rest).2 ⟨given', others, apart.2, ?_, ?_⟩⟩
      · intro g hg
        refine fill_eq_none_iff.2 ⟨fun same => apart.1 ?_, open' g (by simp [hg])⟩
        exact List.mem_map.2 ⟨g, hg, same⟩
      · intro j w
        rw [filled, fill_eq_some_iff free, or_assoc, List.mem_cons]

/-! ### Both counts, and the row -/

/-- With the right counts, a row is what the loop and the collection of the places make. -/
theorem build_of_counts (complete : literals.length = schema.size)
    (beside : attributes = [] ∨ attributes.length = literals.length) :
    build schema attributes literals = (do
      let slots ← assign schema attributes 0 (fun _ => none) literals
      let values ← collect slots
      ofValues schema values) := by
  unfold build
  rcases beside with rfl | beside
  · simp [complete]
  · simp [complete, beside]

/-- Without the right counts, it is one of the two that is reported. -/
theorem build_of_miscounted
    (h : ¬ (literals.length = schema.size ∧
      (attributes = [] ∨ attributes.length = literals.length))) :
    build schema attributes literals
        = .error (.mismatch (.attributeCount attributes.length literals.length)) ∨
      build schema attributes literals
        = .error (.mismatch (.arity schema.size literals.length)) := by
  unfold build
  -- the number of attributes is checked first, and then that of the literals
  by_cases beside : attributes = [] ∨ attributes.length = literals.length
  · have incomplete : literals.length ≠ schema.size := fun complete => h ⟨complete, beside⟩
    right
    rcases beside with rfl | beside
    · simp [incomplete]
    · simp [beside, incomplete]
  · left
    rw [not_or] at beside
    simp [beside]

/-- A row is only built from literals of the right number. -/
theorem counts_of_build {row : Row} (built : build schema attributes literals = .ok row) :
    literals.length = schema.size ∧ (attributes = [] ∨ attributes.length = literals.length) := by
  by_contra miscounted
  rcases build_of_miscounted miscounted with failed | failed
  all_goals
    rw [failed] at built
    cases built

/-- Slots that hold the values of a row are collected to these. -/
theorem collect_values (row : Row) :
    collect (fun j : Fin row.schema.size => row.values[j.1]?) = .ok row.values := by
  rw [collect, mapM_eq_ok_iff]
  conv_rhs => rw [values_eq_map_value]
  rw [List.forall₂_map_right_iff, List.forall₂_same]
  intro j _
  have within : j.1 < row.values.length := by rw [row.arity]; exact j.2
  rw [List.getElem?_eq_getElem within]
  rfl

/-- **The row of some pairs** has, in each place, what the entry for this place gives. There is one
exactly when all pairs have entries, as many as fields and none in the place of another. -/
theorem build_pairs_eq_ok_iff {row : Row} :
    build schema (pairs.map Prod.fst) (pairs.map Prod.snd) = .ok row ↔
      pairs.length = schema.size ∧ row.schema = schema ∧
        ∃ given, pairs.mapM (entry schema) = .ok given ∧ (given.map Prod.fst).Nodup ∧
          ∀ j v, row.values[j.1]? = some v ↔ (j, v) ∈ given := by
  -- the loop starts with free places, so what it leaves there was given
  have loop : ∀ {filled : Slots schema},
      assign schema (pairs.map Prod.fst) 0 (fun _ => none) (pairs.map Prod.snd) = .ok filled ↔
        ∃ given, pairs.mapM (entry schema) = .ok given ∧ (given.map Prod.fst).Nodup ∧
          (∀ g ∈ given, none = none) ∧ ∀ j v, filled j = some v ↔ none = some v ∨ (j, v) ∈ given :=
    assign_eq_ok_iff rfl
  constructor
  · intro built
    have complete : pairs.length = schema.size := by simpa using (counts_of_build built).1
    obtain ⟨own, filled, assigned, values⟩ := build_eq_ok built
    obtain ⟨given, entries, apart, -, holds⟩ := loop.1 assigned
    refine ⟨complete, own, given, entries, apart, fun j v => ?_⟩
    rw [← values j, holds]
    simp
  · rintro ⟨complete, rfl, given, entries, apart, values⟩
    -- the loop leaves in the places what the row has there
    have assigned := loop.2 ⟨given, entries, apart, fun _ _ => rfl, fun j v => by
      rw [values j v]
      simp⟩
    rw [build_of_counts (by simpa using complete) (.inr (by simp)), assigned, ok_bind,
      collect_values, ok_bind]
    exact ofValues_eq_ok_iff.2 ⟨rfl, rfl⟩

/-- Entries for all places are those of a row. -/
theorem exists_row_of_entries {given : List (Fin schema.size × Value)}
    (apart : (given.map Prod.fst).Nodup) (full : given.length = schema.size) :
    ∃ row : Row, row.schema = schema ∧ ∀ (j : Fin schema.size) v,
      row.values[j.1]? = some v ↔ (j, v) ∈ given := by
  -- as many values as places, and no place twice, so each place has one
  choose w there using exists_entry apart full
  refine ⟨⟨schema, (List.finRange schema.size).map w, by simp⟩, rfl, fun j v => ?_⟩
  have value : ((List.finRange schema.size).map w)[j.1]? = some (w j) := by simp
  rw [value, Option.some.injEq]
  constructor
  · rintro rfl
    exact there j
  · intro member
    exact (Prod.mk.inj (List.inj_on_of_nodup_map apart (there j) member rfl)).2

/-- **Pairs make a row** exactly when they have entries, as many as fields and none in the place of
another. -/
theorem exists_build_pairs_iff :
    (∃ row, build schema (pairs.map Prod.fst) (pairs.map Prod.snd) = .ok row) ↔
      pairs.length = schema.size ∧
        ∃ given, pairs.mapM (entry schema) = .ok given ∧ (given.map Prod.fst).Nodup := by
  constructor
  · rintro ⟨row, built⟩
    obtain ⟨complete, -, given, entries, apart, -⟩ := build_pairs_eq_ok_iff.1 built
    exact ⟨complete, given, entries, apart⟩
  · rintro ⟨complete, given, entries, apart⟩
    have full := (mapM_eq_ok_iff.1 entries).length_eq.symm.trans complete
    obtain ⟨row, own, values⟩ := exists_row_of_entries apart full
    exact ⟨row, build_pairs_eq_ok_iff.2 ⟨complete, own, given, entries, apart, values⟩⟩

/-- The order of the pairs does not matter. -/
theorem build_pairs_of_perm {pairs' : List (String × String)} (permuted : pairs'.Perm pairs)
    {row : Row} (built : build schema (pairs.map Prod.fst) (pairs.map Prod.snd) = .ok row) :
    build schema (pairs'.map Prod.fst) (pairs'.map Prod.snd) = .ok row := by
  obtain ⟨complete, own, given, entries, apart, values⟩ := build_pairs_eq_ok_iff.1 built
  -- the entries are permuted along with the pairs
  obtain ⟨given', entries', same⟩ := List.perm_comp_forall₂ permuted (mapM_eq_ok_iff.1 entries)
  refine build_pairs_eq_ok_iff.2 ⟨permuted.length_eq.trans complete, own, given',
    mapM_eq_ok_iff.2 entries', (same.map Prod.fst).nodup_iff.2 apart, fun j v => ?_⟩
  rw [values, same.mem_iff]

/-! ### Literals without attributes -/

theorem getElem?_names (i : Fin schema.size) : schema.names[i.1]? = some (schema.field i).name := by
  rw [Schema.names, List.getElem?_map, List.getElem?_eq_getElem i.2]
  rfl

/-- Without attributes the literals go where the names of the schema would send them. -/
theorem assign_nil {literals : List String} :
    ∀ {i : Nat} {slots : Slots schema}, i + literals.length ≤ schema.size →
      assign schema [] i slots literals = assign schema schema.names i slots literals := by
  induction literals with
  | nil => exact fun _ => rfl
  | cons literal rest ih =>
    intro i slots within
    rw [List.length_cons] at within
    have place : i < schema.size := by omega
    -- the place of a literal is its own, or that of the name there
    have same : target schema [] i = target schema schema.names i := by
      rw [target, target, List.getElem?_nil, getElem?_names ⟨i, place⟩]
      dsimp only
      rw [dif_pos place, schema.position_of_stored]
    have next : ∀ slots : Slots schema,
        assign schema [] (i + 1) slots rest = assign schema schema.names (i + 1) slots rest :=
      fun slots => ih (by omega)
    unfold assign
    simp only [same, next]

/-- **Without attributes**, literals are as good as given beside the names of the schema. -/
theorem build_nil (complete : literals.length = schema.size) :
    build schema [] literals = build schema schema.names literals := by
  have names : schema.names.length = literals.length := by
    rw [complete, Schema.names, List.length_map]
  rw [build_of_counts complete (.inl rfl), build_of_counts complete (.inr names),
    assign_nil (by omega)]

/-- Attributes that are given decide on the places. -/
theorem isFor_of_ne_nil (given : attributes ≠ []) {i : Nat} {place : Fin schema.size} :
    IsFor schema attributes i place ↔
      ∃ name, attributes[i]? = some name ∧ schema.position name = .ok place := by
  rw [IsFor, if_neg given]

theorem names_ne_nil : schema.names ≠ [] := by
  rw [Schema.names, ne_eq, List.map_eq_nil_iff]
  exact schema.fields_ne_nil

/-- The names of the schema, in their order, send each literal to its own field. -/
theorem isFor_names {i : Nat} {place : Fin schema.size} :
    IsFor schema schema.names i place ↔ IsFor schema [] i place := by
  rw [isFor_of_ne_nil names_ne_nil, IsFor, if_pos rfl]
  constructor
  · -- a stored name is that of its own place, so naming the fields in order is counting them
    rintro ⟨name, there, position⟩
    have within : i < schema.size := by
      have within := (List.getElem?_eq_some_iff.1 there).1
      rwa [Schema.names, List.length_map] at within
    rw [getElem?_names ⟨i, within⟩] at there
    rw [← Option.some.inj there, schema.position_of_stored] at position
    rw [← Except.ok.inj position]
  · rintro rfl
    exact ⟨_, getElem?_names place, schema.position_of_stored place⟩

/-- So leaving the attributes out is the same as giving all names in order. -/
theorem describes_names (complete : literals.length = schema.size) :
    Describes schema schema.names literals ↔ Describes schema [] literals := by
  constructor
  · intro h
    exact ⟨complete, .inl rfl, by simp, by simp, fun i literal place there own =>
      h.accepted i literal place there (isFor_names.2 own)⟩
  · intro h
    refine ⟨complete, .inr ?_, ?_, ?_, fun i literal place there own =>
      h.accepted i literal place there (isFor_names.1 own)⟩
    · rw [complete, Schema.names, List.length_map]
    · -- every name resolves to its own place, and to no other
      intro name member
      rw [Schema.names_eq_map_field, List.mem_map] at member
      obtain ⟨place, -, rfl⟩ := member
      exact ⟨place, schema.position_of_stored place⟩
    · have own : schema.names.map schema.position = (List.finRange schema.size).map .ok := by
        rw [Schema.names_eq_map_field, List.map_map]
        exact List.map_congr_left fun place _ => schema.position_of_stored place
      rw [own]
      exact (List.nodup_finRange _).map fun _ _ => Except.ok.inj

/-- Literals with the right counts are those of some pairs. -/
theorem exists_pairs (complete : literals.length = schema.size)
    (beside : attributes = [] ∨ attributes.length = literals.length) :
    ∃ pairs : List (String × String), pairs.length = schema.size ∧ pairs.map Prod.snd = literals ∧
      build schema attributes literals = build schema (pairs.map Prod.fst) (pairs.map Prod.snd) ∧
      (∀ i place, IsFor schema attributes i place ↔ IsFor schema (pairs.map Prod.fst) i place) ∧
      (Describes schema attributes literals ↔
        Describes schema (pairs.map Prod.fst) (pairs.map Prod.snd)) := by
  have zipped : ∀ names : List String, names.length = literals.length →
      (names.zip literals).length = schema.size ∧ (names.zip literals).map Prod.fst = names ∧
        (names.zip literals).map Prod.snd = literals := by
    intro names length
    refine ⟨?_, List.map_fst_zip length.le, List.map_snd_zip length.ge⟩
    rw [List.length_zip, length, complete, Nat.min_self]
  rcases beside with rfl | beside
  · -- the names of the schema stand in for the attributes
    have names : schema.names.length = literals.length := by
      rw [complete, Schema.names, List.length_map]
    obtain ⟨length, first, second⟩ := zipped _ names
    refine ⟨schema.names.zip literals, length, second, ?_⟩
    rw [first, second]
    exact ⟨build_nil complete, fun _ _ => isFor_names.symm, (describes_names complete).symm⟩
  · obtain ⟨length, first, second⟩ := zipped _ beside
    refine ⟨attributes.zip literals, length, second, ?_⟩
    rw [first, second]
    exact ⟨rfl, fun _ _ => Iff.rfl, Iff.rfl⟩

/-! ### Pairs that describe a row -/

/-- The entry of a pair is the value that its literal is read as for its field. -/
theorem isFor_pairs_iff (complete : pairs.length = schema.size) {i : Nat}
    {place : Fin schema.size} :
    IsFor schema (pairs.map Prod.fst) i place ↔
      ∃ pair, pairs[i]? = some pair ∧ schema.position pair.1 = .ok place := by
  -- a schema has a field, so there are attributes
  have given : pairs.map Prod.fst ≠ [] := by
    intro none
    rw [List.map_eq_nil_iff] at none
    rw [none] at complete
    exact absurd complete schema.size_pos.ne
  rw [isFor_of_ne_nil given]
  simp only [List.getElem?_map, Option.map_eq_some_iff]
  constructor
  · rintro ⟨_, ⟨pair, there, rfl⟩, position⟩
    exact ⟨pair, there, position⟩
  · rintro ⟨pair, there, position⟩
    exact ⟨_, ⟨pair, there, rfl⟩, position⟩

/-- **Pairs describe a row** exactly when they have entries, as many as fields and none in the place
of another. -/
theorem describes_pairs_iff :
    Describes schema (pairs.map Prod.fst) (pairs.map Prod.snd) ↔
      pairs.length = schema.size ∧
        ∃ given, pairs.mapM (entry schema) = .ok given ∧ (given.map Prod.fst).Nodup := by
  constructor
  · intro h
    have complete : pairs.length = schema.size := by simpa using h.complete
    -- every pair has its place and a literal that can be read there
    have each : ∀ pair ∈ pairs, ∃ g, entry schema pair = .ok g ∧ True := by
      intro pair member
      obtain ⟨i, there⟩ := List.mem_iff_getElem?.1 member
      obtain ⟨place, position⟩ := h.resolved pair.1 (List.mem_map_of_mem member)
      have literal : (pairs.map Prod.snd)[i]? = some pair.2 := by rw [List.getElem?_map, there]; rfl
      obtain ⟨v, read⟩ := h.accepted i pair.2 place literal
        ((isFor_pairs_iff complete).2 ⟨pair, there, position⟩)
      exact ⟨(place, v), entry_eq_ok_iff.2 ⟨position, read⟩, trivial⟩
    obtain ⟨given, entries, -⟩ := exists_mapM_forall₂ each
    exact ⟨complete, given, entries, (nodup_places_iff (mapM_eq_ok_iff.1 entries)).2 h.apart⟩
  · rintro ⟨complete, given, entries, apart⟩
    have each := mapM_eq_ok_iff.1 entries
    refine ⟨by simpa using complete, .inr (by simp), ?_, (nodup_places_iff each).1 apart, ?_⟩
    · intro name member
      obtain ⟨pair, paired, rfl⟩ := List.mem_map.1 member
      obtain ⟨i, there⟩ := List.mem_iff_getElem?.1 paired
      obtain ⟨g, -, here⟩ := exists_getElem?_of_forall₂ each there
      exact ⟨g.1, (entry_eq_ok_iff.1 here).1⟩
    · intro i literal place there own
      -- the literal is that of a pair, so its entry says where it goes
      obtain ⟨pair, here, position⟩ := (isFor_pairs_iff complete).1 own
      obtain ⟨g, -, entry⟩ := exists_getElem?_of_forall₂ each here
      obtain ⟨position', read⟩ := entry_eq_ok_iff.1 entry
      rw [List.getElem?_map, here] at there
      rw [position] at position'
      obtain rfl := Except.ok.inj position'
      rw [← Option.some.inj there]
      exact ⟨g.2, read⟩

/-- A row that is built from pairs has the value of each literal in the literal's field. -/
theorem exists_value_of_pairs {row : Row}
    (built : build schema (pairs.map Prod.fst) (pairs.map Prod.snd) = .ok row) {i : Nat}
    {literal : String} {place : Fin schema.size} (there : (pairs.map Prod.snd)[i]? = some literal)
    (own : IsFor schema (pairs.map Prod.fst) i place) :
    ∃ v, (schema.field place).type.read (schema.field place).name literal = .ok v ∧
      row.values[place.1]? = some v := by
  obtain ⟨complete, -, given, entries, -, values⟩ := build_pairs_eq_ok_iff.1 built
  obtain ⟨pair, here, position⟩ := (isFor_pairs_iff complete).1 own
  obtain ⟨g, member, entry⟩ := exists_getElem?_of_forall₂ (mapM_eq_ok_iff.1 entries) here
  obtain ⟨position', read⟩ := entry_eq_ok_iff.1 entry
  rw [List.getElem?_map, here] at there
  rw [position] at position'
  obtain rfl := Except.ok.inj position'
  rw [← Option.some.inj there]
  exact ⟨g.2, read, (values g.1 g.2).2 (List.mem_of_getElem? member)⟩

/-! ### No value is missing -/

/-- The loop reports no missing value; this is left to the check behind it. -/
theorem assign_ne_notGiven {column : String} :
    ∀ {i : Nat} {slots : Slots schema},
      FailsOnly (· ≠ .mismatch (.notGiven column)) (assign schema attributes i slots literals) := by
  -- a name fails over itself only
  have named : ∀ name, FailsOnly (· ≠ .mismatch (.notGiven column)) (schema.position name) :=
    fun name => (schema.position_failsOnly name).mono fun e isName same => by
      rw [same] at isName
      exact isName
  induction literals with
  | nil => exact failsOnly_ok _
  | cons literal rest ih =>
    intro i slots
    -- the three ways to find a place, and none of them asks for missing literals
    have goes : FailsOnly (· ≠ .mismatch (.notGiven column)) (target schema attributes i) := by
      unfold target
      split
      · exact named _
      split
      · exact failsOnly_ok _
      · exact failsOnly_error.2 (by simp)
    refine goes.bind fun place => ?_
    dsimp only
    split
    · exact failsOnly_error.2 (by simp)
    · refine FailsOnly.bind ?_ fun v => ih
      unfold ColumnType.read
      split
      all_goals
        split
        · exact failsOnly_ok _
        · exact failsOnly_error.2 (by simp)

/-- **No value is ever missing.** When the loop has come to its end, there are as many entries as
fields and no place twice, so that no place is empty. -/
theorem build_ne_notGiven (column : String) :
    build schema attributes literals ≠ .error (.mismatch (.notGiven column)) := by
  by_cases counts : literals.length = schema.size ∧
      (attributes = [] ∨ attributes.length = literals.length)
  · -- the loop does not report it, and behind a loop that succeeds a row is built
    obtain ⟨pairs, complete, -, same, -, -⟩ := exists_pairs counts.1 counts.2
    rw [same, build_of_counts (by simpa using complete) (.inr (by simp))]
    cases assigned : assign schema (pairs.map Prod.fst) 0 (fun _ => none) (pairs.map Prod.snd) with
    | error e => exact fun failed => assign_ne_notGiven e assigned (Except.error.inj failed)
    | ok filled =>
      obtain ⟨given, entries, apart, -, -⟩ := (assign_eq_ok_iff rfl).1 assigned
      obtain ⟨row, built⟩ := exists_build_pairs_iff.2 ⟨complete, given, entries, apart⟩
      rw [build_of_counts (by simpa using complete) (.inr (by simp)), assigned] at built
      rw [built]
      simp
  · rcases build_of_miscounted counts with failed | failed
    all_goals
      rw [failed]
      simp

/-- **Which literals make a row, and which row.** A row is built exactly from the literals that
describe one, and has in every field the value that the literal for this field is read as. Pairs of
an attribute and a literal make the same row in every order. That a value is missing is never
reported. -/
theorem build_assigns_literals (schema : Schema) (attributes literals : List String) :
    ((∃ row, build schema attributes literals = .ok row) ↔ Describes schema attributes literals) ∧
    (∀ row, build schema attributes literals = .ok row → row.schema = schema ∧
      ∀ i literal place, literals[i]? = some literal → IsFor schema attributes i place →
        ∃ v, (schema.field place).type.read (schema.field place).name literal = .ok v ∧
          row.values[place.1]? = some v) ∧
    (∀ pairs pairs' : List (String × String), pairs.map Prod.fst = attributes →
      pairs.map Prod.snd = literals → pairs'.Perm pairs → ∀ row,
        (build schema (pairs'.map Prod.fst) (pairs'.map Prod.snd) = .ok row ↔
          build schema attributes literals = .ok row)) ∧
    ∀ column, build schema attributes literals ≠ .error (.mismatch (.notGiven column)) := by
  refine ⟨?_, ?_, ?_, build_ne_notGiven⟩
  · -- with the right counts the attributes may be taken as given, and with others there is no row
    -- and nothing described
    by_cases counts : literals.length = schema.size ∧
        (attributes = [] ∨ attributes.length = literals.length)
    · obtain ⟨pairs, -, -, same, -, describes⟩ := exists_pairs counts.1 counts.2
      rw [same, describes, exists_build_pairs_iff, describes_pairs_iff]
    · refine iff_of_false ?_ fun h => counts ⟨h.complete, h.beside⟩
      rintro ⟨row, built⟩
      exact counts (counts_of_build built)
  · intro row built
    refine ⟨(build_eq_ok built).1, fun i literal place there own => ?_⟩
    obtain ⟨complete, beside⟩ := counts_of_build built
    obtain ⟨pairs, -, rfl, same, isFor, -⟩ := exists_pairs complete beside
    exact exists_value_of_pairs (same ▸ built) there ((isFor i place).1 own)
  · rintro pairs pairs' rfl rfl permuted row
    exact ⟨build_pairs_of_perm permuted.symm, build_pairs_of_perm permuted⟩

end RelEngine.Row
