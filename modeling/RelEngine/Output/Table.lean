import RelEngine.Projection
import RelEngine.Row
import RelEngine.Settings

/-!
# Printed tables

The rows of a result are printed as lines of cells, left-justified and at least `width` characters
wide. Widths count characters. Above the rows stand a line with their number and a header line; an
empty result prints nothing.

All rows are laid out before the first line is given away, so a row that cannot be printed leaves no
part of a table behind.
-/

namespace RelEngine

/-- **The layout of printed cells.** -/
structure Renderer where
  width : Nat
  overflow : Overflow
deriving DecidableEq, Repr

namespace Renderer

/-- The layout without any setting. -/
def standard : Renderer := ⟨Settings.standard.cellWidth, .grow⟩

/-- The layout that the settings ask for. -/
def ofSettings (s : Settings) : Renderer := ⟨s.cellWidth, s.overflow⟩

/-- **One cell**: the text with spaces up to the width. A longer text is cut to the width or kept
whole, as the overflow policy says. -/
def cell (r : Renderer) (text : String) : String :=
  let chars := text.toList
  let shown := match r.overflow with
    | .truncate => chars.take r.width
    | .grow => chars
  String.ofList (shown ++ List.replicate (r.width - shown.length) ' ')

/-- A line of cells. -/
def cells (r : Renderer) (texts : List String) : String :=
  String.join (texts.map r.cell)

/-- The header line: the headers as written, or for all columns the column part of every field name
of the sample row. -/
def header (r : Renderer) (sample : Row) (headers : List String) : String :=
  if Projection.isWildcard headers then r.cells (sample.schema.names.map columnPart)
  else r.cells headers

/-- The text of a value, which has to be of the kind its field declares. -/
def shownValue (reference : String) (type : ColumnType) (value : Value) : Except Error String :=
  match type, value with
  | .int, .int i => .ok (Value.int i).print
  | .text, .text s => .ok (Value.text s).print
  | type, value => .error (.mismatch (.wrongType reference type value))

/-- The text of the field that a reference resolves to. -/
def fieldText (row : Row) (reference : String) : Except Error String := do
  let type ← row.schema.typeOf reference
  let value ← row.get reference
  shownValue reference type value

/-- The references that a list of keys stands for: itself, or all stored names. -/
def references (row : Row) (keys : List String) : List String :=
  if Projection.isWildcard keys then row.schema.names else keys

/-- The line of one row. -/
def line (r : Renderer) (row : Row) (keys : List String) : Except Error String := do
  let texts ← (references row keys).mapM (fieldText row)
  .ok (r.cells texts)

/-- **The lines of a result**: the number of rows, the header and the rows, or nothing without
rows. -/
def table (r : Renderer) (rows : List Row) (projection : Projection) :
    Except Error (List String) :=
  match rows with
  | [] => .ok []
  | sample :: _ => do
    let lines ← rows.mapM fun row => r.line row projection.keys
    .ok (s!"Rows returned: {rows.length}" :: r.header sample projection.headers :: lines)

end Renderer

end RelEngine
