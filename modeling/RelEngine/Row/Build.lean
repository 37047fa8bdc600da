import RelEngine.Row
import RelEngine.Value.Literal

/-!
# Rows from literals

A new row is given as a list of literals, either in the order of the schema or beside a list of
attributes that names the field of each literal. The literals are taken in the order in which they
are given; each is read for its field and put into the field's place, and a place takes one value
only. Every field has to be given.

The row under construction is a list of places that are empty or filled (`Slots`).
-/

namespace RelEngine.Row

/-- The places of a row under construction. -/
abbrev Slots (schema : Schema) := Fin schema.size → Option Value

/-- The place a literal goes to: that of its attribute, or its own place in the list. -/
def target (schema : Schema) (attributes : List String) (i : Nat) :
    Except Error (Fin schema.size) :=
  match attributes[i]? with
  | some name => schema.position name
  | none =>
    if h : i < schema.size then .ok ⟨i, h⟩
    else .error (.mismatch (.arity schema.size (i + 1)))

/-- Puts one value into its place. -/
def Slots.fill {schema : Schema} (slots : Slots schema) (i : Fin schema.size) (v : Value) :
    Slots schema :=
  fun j => if j = i then some v else slots j

/-- Reads the literals from the `i`-th on into their places. -/
def assign (schema : Schema) (attributes : List String) (i : Nat) (slots : Slots schema) :
    List String → Except Error (Slots schema)
  | [] => .ok slots
  | literal :: rest => do
    let place ← target schema attributes i
    let field := schema.field place
    if (slots place).isSome then .error (.mismatch (.givenTwice field.name))
    let value ← field.type.read field.name literal
    assign schema attributes (i + 1) (slots.fill place value) rest

/-- The values of all places, in order, unless one is empty. -/
def collect {schema : Schema} (slots : Slots schema) : Except Error (List Value) :=
  (List.finRange schema.size).mapM fun i =>
    match slots i with
    | some v => .ok v
    | none => .error (.mismatch (.notGiven (schema.field i).name))

/-- **The row that literals describe.** An empty attribute list stands for the schema's own
order. -/
def build (schema : Schema) (attributes literals : List String) : Except Error Row := do
  -- counts first, so that every literal has its place or its attribute
  if !attributes.isEmpty && attributes.length != literals.length then
    .error (.mismatch (.attributeCount attributes.length literals.length))
  if literals.length != schema.size then
    .error (.mismatch (.arity schema.size literals.length))
  let slots ← assign schema attributes 0 (fun _ => none) literals
  let values ← collect slots
  ofValues schema values

end RelEngine.Row
