import RelEngine.Error
import RelEngine.Text.Split

/-!
# Schemas and the resolution of names

A schema is a non-empty list of fields with pairwise different names. The schema of a joined row
stores each field under its **qualified** name `table#column`; a stored table has plain names.

A reference is resolved by `Schema.position` in three steps, the first that applies deciding:

1. the stored name itself;
2. for a reference with a point, `table.column` stands for the stored `table#column`;
3. a bare reference stands for the one qualified field whose column part it is.

Main statements:

* `firstRepeat_eq_none_iff` — the check of a field list finds a repeated name iff there is one;
* `Schema.ofFields_eq_ok_iff` — which field lists make a schema;
* `Schema.position_of_stored` — a stored name always resolves to its own place.
-/

namespace RelEngine

/-- **A field**: a name and a declared type. -/
structure Field where
  name : String
  type : ColumnType
deriving DecidableEq, Repr

/-- Joins the table and the column in a stored qualified name. -/
def qualifier : Char := '#'

/-- Joins the table and the column in a reference. -/
def referencePoint : Char := '.'

/-- The stored form of a column that belongs to a table. -/
def qualify (table column : String) : String :=
  String.ofList (table.toList ++ qualifier :: column.toList)

/-- The column part of a stored name: what follows the first qualifier, or the whole name. -/
def columnPart (stored : String) : String :=
  match Text.splitAtFirst qualifier stored with
  | some (_, column) => column
  | none => stored

/-- The first element that occurs among `seen` or earlier in the list. -/
def firstRepeat (seen : List String) : List String → Option String
  | [] => none
  | name :: rest => if name ∈ seen then some name else firstRepeat (name :: seen) rest

/-- There is no repeat iff the names are pairwise different and none was seen before. -/
theorem firstRepeat_eq_none_iff {seen names : List String} :
    firstRepeat seen names = none ↔ names.Nodup ∧ ∀ n ∈ names, n ∉ seen := by
  induction names generalizing seen with
  | nil => simp [firstRepeat]
  | cons name rest ih =>
    -- a name that was seen ends the search, and any other is seen from here on
    by_cases h : name ∈ seen
    · simp [firstRepeat, h]
    · simp only [firstRepeat, if_neg h, ih, List.nodup_cons, List.mem_cons]
      constructor
      · rintro ⟨hd, hs⟩
        refine ⟨⟨fun m => hs _ m (.inl rfl), hd⟩, ?_⟩
        rintro n (rfl | m)
        · exact h
        · exact fun k => hs n m (.inr k)
      · rintro ⟨⟨hn, hd⟩, hs⟩
        refine ⟨hd, fun n m => ?_⟩
        rintro (rfl | k)
        · exact hn m
        · exact hs n (.inr m) k

/-- **A schema**: one field or more, no two of one name. -/
structure Schema where
  fields : List Field
  fields_ne_nil : fields ≠ []
  names_nodup : (fields.map Field.name).Nodup
deriving DecidableEq, Repr

namespace Schema

/-- The schema of a field list, unless it is empty or repeats a name. -/
def ofFields (fields : List Field) : Except Error Schema :=
  if hne : fields = [] then .error (.mismatch .emptySchema)
  else
    match hrep : firstRepeat [] (fields.map Field.name) with
    | some name => .error (.mismatch (.duplicateField name))
    | none => .ok ⟨fields, hne, (firstRepeat_eq_none_iff.1 hrep).1⟩

/-- A field list makes a schema iff it is not empty and its names are pairwise different. -/
theorem ofFields_eq_ok_iff {fields : List Field} {s : Schema} :
    ofFields fields = .ok s ↔ s.fields = fields := by
  constructor
  · intro h
    unfold ofFields at h
    split at h
    · cases h
    · split at h <;> cases h
      rfl
  · rintro rfl
    obtain ⟨fields, hne, hnd⟩ := s
    -- the names of a schema differ, so no repeat is found
    have hrep : firstRepeat [] (fields.map Field.name) = none :=
      firstRepeat_eq_none_iff.2 ⟨hnd, by simp⟩
    unfold ofFields
    rw [dif_neg hne]
    split
    · next h => simp [h] at hrep
    · rfl

/-- The number of fields. -/
abbrev size (s : Schema) : Nat := s.fields.length

theorem size_pos (s : Schema) : 0 < s.size :=
  List.length_pos_iff.2 s.fields_ne_nil

/-- The field names, in order. -/
def names (s : Schema) : List String := s.fields.map Field.name

/-- The field at a place. -/
def field (s : Schema) (i : Fin s.size) : Field := s.fields[i]

/-- The place of a stored name. -/
def stored? (s : Schema) (name : String) : Option (Fin s.size) :=
  s.fields.findFinIdx? (·.name == name)

/-- The places of the qualified fields with a given column part. -/
def carrying (s : Schema) (column : String) : List (Fin s.size) :=
  (List.finRange s.size).filter fun i =>
    let name := (s.field i).name
    name.toList.contains qualifier && columnPart name == column

/-- **The place a reference resolves to.** -/
def position (s : Schema) (reference : String) : Except Error (Fin s.size) :=
  match s.stored? reference with
  | some i => .ok i
  | none =>
    match Text.splitAtFirst referencePoint reference with
    | some (table, column) =>
      -- a reference with a point never falls back to a bare name
      match s.stored? (qualify table column) with
      | some i => .ok i
      | none => .error (.columnNotFound reference)
    | none =>
      match s.carrying reference with
      | [] => .error (.columnNotFound reference)
      | [i] => .ok i
      | _ :: _ :: _ => .error (.ambiguousColumn reference)

/-- The declared type of the field a reference resolves to. -/
def typeOf (s : Schema) (reference : String) : Except Error ColumnType :=
  (s.position reference).map fun i => (s.field i).type

/-- The schema of the first fields. The full width gives the schema itself. -/
def leading (s : Schema) (width : Nat) : Except Error Schema :=
  if width = s.size then .ok s else ofFields (s.fields.take width)

/-- The fields of a source as they are stored in a joined row. -/
def qualifiedFields (table : String) (s : Schema) : List Field :=
  s.fields.map fun f => { f with name := qualify table (columnPart f.name) }

/-- **The schema of a cross product**: the fields of all sources, each under its qualified name. -/
def qualified (sources : List (String × Schema)) : Except Error Schema :=
  ofFields (sources.flatMap fun p => qualifiedFields p.1 p.2)

/-! ### Places and names -/

/-- The names of a schema are those at its places, in order. -/
theorem names_eq_map_field (s : Schema) :
    s.names = (List.finRange s.size).map fun i => (s.field i).name := by
  apply List.ext_getElem
  · rw [names, List.length_map, List.length_map, List.length_finRange]
  · intro i _ _
    simp [names, field]

/-- Different places hold different names. -/
theorem field_name_inj {s : Schema} {i j : Fin s.size}
    (h : (s.field i).name = (s.field j).name) : i = j := by
  have apart := List.pairwise_iff_getElem.1 s.names_nodup
  have hi : i.1 < (s.fields.map Field.name).length := by simp
  have hj : j.1 < (s.fields.map Field.name).length := by simp
  have hn : (s.fields.map Field.name)[i.1] = (s.fields.map Field.name)[j.1] := by
    simpa [field] using h
  rcases Nat.lt_trichotomy i.1 j.1 with lt | eq | gt
  · exact absurd hn (apart _ _ hi hj lt)
  · exact Fin.ext eq
  · exact absurd hn.symm (apart _ _ hj hi gt)

/-- The place of a stored name is the one place that holds it. -/
theorem stored?_eq_some_iff {s : Schema} {name : String} {i : Fin s.size} :
    s.stored? name = some i ↔ (s.field i).name = name := by
  unfold stored?
  rw [List.findFinIdx?_eq_some_iff]
  constructor
  · rintro ⟨h, -⟩
    simpa [field] using h
  · intro h
    refine ⟨by simpa [field] using h, fun j hj hn => ?_⟩
    have : (s.field j).name = (s.field i).name := by rw [h]; simpa [field] using hn
    exact absurd (field_name_inj this) (by intro e; subst e; exact absurd hj (Nat.lt_irrefl _))

/-- A stored name always resolves to its own place. -/
theorem position_of_stored (s : Schema) (i : Fin s.size) :
    s.position (s.field i).name = .ok i := by
  unfold position
  rw [stored?_eq_some_iff.2 rfl]

end Schema

end RelEngine
