import RelEngine.Decimal.Integer
import RelEngine.Error

/-!
# Literals

A literal is the text of a value as a statement gives it. `ColumnType.read` turns it into a value of
the declared type, or says why it is none: a number has to fit 32 bits, a text at most
`maxTextBytes` bytes.

* `hasType_of_read` — what is read has the type it was read for;
* `read_print` — the printed form of a value is a literal for that value.
-/

namespace RelEngine.ColumnType

/-- The value that a literal stands for in a column of this type. -/
def read (type : ColumnType) (column literal : String) : Except Error Value :=
  match type with
  | int =>
    match Decimal.readInt32 literal with
    | some i => .ok (.int i)
    | none => .error (.mismatch (.notANumber literal column))
  | text =>
    if literal.utf8ByteSize ≤ maxTextBytes then .ok (.text literal)
    else .error (.mismatch (.textTooLong literal column))

/-- What is read has the type it was read for. -/
theorem hasType_of_read {type : ColumnType} {column literal : String} {v : Value}
    (h : type.read column literal = .ok v) : v.HasType type := by
  unfold read at h
  split at h <;> split at h <;> cases h
  · trivial
  · assumption

/-- The printed form of a value is a literal for it, in every column of a type that covers it. -/
theorem read_print {type : ColumnType} {v : Value} (h : v.HasType type) (column : String) :
    type.read column v.print = .ok v := by
  cases type with
  | int =>
    cases v with
    | int i => rw [read, Value.print, Decimal.readInt32_toString]
    | text s => cases h
  | text =>
    cases v with
    | int i => cases h
    | text s =>
      -- a text stands for itself, and its length has been checked before
      have short : s.utf8ByteSize ≤ maxTextBytes := h
      rw [read, Value.print, if_pos short]

end RelEngine.ColumnType
