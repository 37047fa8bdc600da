import RelEngine.Text.Case

/-!
# Column types and values

A column is declared either for whole numbers of 32 bits or for short texts. A value is one or the
other; `Value.HasType` says which values a type covers — every number for the one, a text of at most
`maxTextBytes` bytes for the other.
-/

namespace RelEngine

/-- **The declared type of a column.** -/
inductive ColumnType where
  | int
  | text
deriving DecidableEq, Repr

/-- **One stored value.** -/
inductive Value where
  | int (i : Int32)
  | text (s : String)
deriving DecidableEq, Repr

/-- The longest text a text column holds, in bytes of UTF-8. -/
def maxTextBytes : Nat := 20

namespace ColumnType

/-- The name of a type. -/
def name : ColumnType → String
  | int => "INT"
  | text => "STR20"

/-- The type that a name stands for, in any letter case. `INTEGER` is a second name of `INT`. -/
def ofName? (s : String) : Option ColumnType :=
  let upper := Text.upper s
  if upper = "INT".toList ∨ upper = "INTEGER".toList then some int
  else if upper = "STR20".toList then some text
  else none

/-- The name of a type stands for that type. -/
theorem ofName?_name (t : ColumnType) : ofName? t.name = some t := by
  cases t <;> decide

end ColumnType

namespace Value

/-- The printed form of a value. -/
def print : Value → String
  | int i => toString i.toInt
  | text s => s

/-- **Typing of values**: numbers belong to number columns, texts of bounded size to text
columns. -/
def HasType : Value → ColumnType → Prop
  | int _, .int => True
  | text s, .text => s.utf8ByteSize ≤ maxTextBytes
  | _, _ => False

instance (v : Value) (t : ColumnType) : Decidable (v.HasType t) := by
  cases v <;> cases t <;> simp only [HasType] <;> infer_instance

end Value

end RelEngine
