import RelEngine.Text.Quoted
import RelEngine.Tree.Reader
import RelEngine.Value

/-!
# Errors

An error names its cause; `Error.message` gives its wording, and nothing else does. The causes fall
into the classes of `Error`: a name that does not resolve, a text that is not a tree, a tree that is
not a statement (`Malformed`), a value or schema that does not fit (`Mismatch`), and a failing input
or output.
-/

namespace RelEngine

/-- **Why a tree is not a statement.** -/
inductive Malformed where
  /-- A condition without exactly two operands. -/
  | operandCount (kind : String)
  /-- A condition that is no comparison and no connective. -/
  | unknownCondition (kind : String)
  /-- A clause where a text is needed. -/
  | notText (tree : Tree)
  /-- A wrapper with nothing in it. -/
  | noValue (kind : String)
  /-- A statement without one of its clauses. -/
  | missing (statement clause : Keyword)
  /-- A field declaration of another shape. -/
  | badAttribute (tree : Tree)
  /-- A list of sources without a table. -/
  | noTables
  /-- A condition clause without a condition. -/
  | emptySelection
  /-- A column list without a column. -/
  | noColumns
  /-- A column list entry without a reference. -/
  | unnamedColumn (kind : String)
  /-- A reference with more than one point. -/
  | tooManyParts (reference : String)
deriving DecidableEq, Repr

/-- **Why a value, a row or a schema does not fit.** -/
inductive Mismatch where
  | unknownType (type field : String)
  | emptySchema
  | duplicateField (name : String)
  | arity (expected got : Nat)
  | attributeCount (attributes values : Nat)
  | notANumber (literal column : String)
  | textTooLong (literal column : String)
  | givenTwice (column : String)
  | notGiven (column : String)
  | wrongType (field : String) (type : ColumnType) (value : Value)
deriving DecidableEq, Repr

/-- **What can go wrong.** -/
inductive Error where
  | tableNotFound (table : String)
  | tableExists (table : String)
  | columnNotFound (reference : String)
  | ambiguousColumn (reference : String)
  | unreadable (fault : Tree.ReadFault)
  | malformed (cause : Malformed)
  | unknownStatement (kind : String)
  | mismatch (cause : Mismatch)
  /-- The output takes no more text. -/
  | outputClosed
  /-- The input is not well-formed UTF-8. -/
  | inputNotText
deriving DecidableEq, Repr

/-- The wording of a fault in the text of a tree: what is left of the text, and what was missing
there. -/
def Tree.ReadFault.message : Tree.ReadFault → String
  | trailing rest => report rest "Eof"
  | unreadable text => report text "TakeWhile1"
where
  /-- The remaining text, quoted, and the name of the missing part. -/
  report (remaining : List Char) (expected : String) : String :=
    "Parsing Error: Error \x7b input: " ++ Text.quoted remaining ++ ", code: " ++ expected ++
      " \x7d"

/-- The wording of a malformed statement. -/
def Malformed.message : Malformed → String
  | operandCount kind => s!"'{kind}' needs two operands"
  | unknownCondition kind => s!"unknown condition '{kind}'"
  | notText tree => s!"expected a value, found '{tree.toText}'"
  | noValue kind => s!"'{kind}' has no value"
  | missing .select clause => s!"SELECT without {clause.text}"
  | missing statement clause => s!"{statement.text} statement without {clause.text}"
  | badAttribute tree => s!"bad attribute '{tree.toText}'"
  | noTables => "FROM lists no tables"
  | emptySelection => "empty WHERE"
  | noColumns => "SELECT lists no columns"
  | unnamedColumn kind => s!"column '{kind}' has no name"
  | tooManyParts reference => s!"column reference '{reference}' has too many parts"

/-- The wording of a mismatch. -/
def Mismatch.message : Mismatch → String
  | unknownType type field => s!"unknown type '{type}' for '{field}'"
  | emptySchema => "a schema needs at least one field"
  | duplicateField name => s!"duplicate field '{name}'"
  | arity expected got => s!"expected {expected} values, got {got}"
  | attributeCount attributes values => s!"{attributes} attributes but {values} values"
  | notANumber literal column => s!"value '{literal}' for column '{column}' is not a valid INT"
  | textTooLong literal column =>
    s!"value '{literal}' for column '{column}' exceeds {maxTextBytes} characters"
  | givenTwice column => s!"column '{column}' given twice"
  | notGiven column => s!"missing value for '{column}'"
  | wrongType field type value => s!"field '{field}' declared {type.name} holds '{value.print}'"

/-- The wording of an error. -/
def Error.message : Error → String
  | tableNotFound table => s!"table '{table}' not found"
  | tableExists table => s!"table '{table}' already exists"
  | columnNotFound reference => s!"column '{reference}' not found"
  | ambiguousColumn reference => s!"column reference '{reference}' is ambiguous"
  | unreadable fault => s!"parse error: {fault.message}"
  | malformed cause => s!"malformed statement: {cause.message}"
  | unknownStatement kind => s!"unrecognized statement kind '{kind}'"
  | mismatch cause => s!"invalid value: {cause.message}"
  | outputClosed => "closed"
  | inputNotText => "stream did not contain valid UTF-8"

end RelEngine
