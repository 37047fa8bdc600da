import RelEngine.Schema

/-!
# Rows

A row is a list of values under a schema, one value for each field. Values are fetched by reference
through the schema. `Row.Typed` says that every value has the declared type of its field; rows built
from literals are typed, but a row as such need not be.
-/

namespace RelEngine

/-- **A row**: a schema and one value for each of its fields. -/
structure Row where
  schema : Schema
  values : List Value
  arity : values.length = schema.size
deriving DecidableEq, Repr

namespace Row

/-- The row of these values, unless their number is not that of the fields. -/
def ofValues (schema : Schema) (values : List Value) : Except Error Row :=
  if h : values.length = schema.size then .ok ⟨schema, values, h⟩
  else .error (.mismatch (.arity schema.size values.length))

/-- The value at a place. -/
def value (r : Row) (i : Fin r.schema.size) : Value :=
  r.values.get (i.cast r.arity.symm)

/-- The value a reference resolves to. -/
def get (r : Row) (reference : String) : Except Error Value :=
  (r.schema.position reference).map r.value

/-- The values of two rows one after the other, under a schema that covers both. -/
def join (r other : Row) (schema : Schema) : Except Error Row :=
  ofValues schema (r.values ++ other.values)

/-- The same values under another schema. -/
def withSchema (r : Row) (schema : Schema) : Except Error Row :=
  ofValues schema r.values

/-- **Typing of rows**: each value has the type its field declares. -/
def Typed (r : Row) : Prop :=
  ∀ i : Fin r.schema.size, (r.value i).HasType (r.schema.field i).type

/-- The values of a row are those at its places, in order. -/
theorem values_eq_map_value (r : Row) :
    r.values = (List.finRange r.schema.size).map r.value := by
  apply List.ext_getElem
  · rw [List.length_map, List.length_finRange, r.arity]
  · intro i _ _
    simp [value]

/-- A row is made exactly when there is one value for each field. -/
theorem ofValues_eq_ok_iff {schema : Schema} {values : List Value} {r : Row} :
    ofValues schema values = .ok r ↔ r.schema = schema ∧ r.values = values := by
  constructor
  · intro h
    unfold ofValues at h
    split at h <;> cases h
    exact ⟨rfl, rfl⟩
  · rintro ⟨rfl, rfl⟩
    simp [ofValues, r.arity]

end Row

end RelEngine
