import Mathlib.Algebra.BigOperators.Group.List.Basic
import Mathlib.Algebra.GroupWithZero.Nat
import Mathlib.Algebra.Order.BigOperators.Group.List
import Mathlib.Algebra.Order.Group.Nat
import RelEngine.Proofs.WholeRows

/-!
# Columns of a printed line

A printed line is its cells, one behind the other, with nothing between them. A reader who wants the
`j`-th cell has to know where it begins, and here is what the policy lets them know.

When cells are cut, all of them have the same width, so the `j`-th begins at `j` widths and shows
the first characters of its text (`FixedColumns`). When cells grow, a cell is as wide as its text if
that is longer, so the `j`-th begins where the widths of the cells before it add up to, and shows
its whole text (`GrownColumns`). Either way spaces fill what a text leaves of its cell, and all
lengths count characters.

That a cell stands where the widths before it add up to holds of any line of cells
(`Renderer.slice_cells`); the policy only decides what the widths are
(`Renderer.length_cell_truncate`, `Renderer.length_cell_grow`). A text that fits its cell makes the
same cell under both policies, so the lines differ exactly if some text is longer than the width.

* `Renderer.laid_cells` — a line of cells under either policy, and when the two are the same;
* `Renderer.lines_aligned` — the header and the lines of printed rows.
-/

namespace RelEngine

/-! ### Places in a line -/

/-- The characters of a line from a place on, so many of them. -/
def Text.slice (line : String) (start count : Nat) : List Char :=
  (line.toList.drop start).take count

/-- Characters with spaces behind them, up to a width. -/
def Text.padded (width : Nat) (chars : List Char) : List Char :=
  chars ++ List.replicate (width - chars.length) ' '

/-- A padded text has the width, or its own length if that is more. -/
theorem Text.length_padded (width : Nat) (chars : List Char) :
    (padded width chars).length = max width chars.length := by
  rw [padded, List.length_append, List.length_replicate]
  omega

/-- **Columns of one width**: the cell of each text has that many characters, the first ones of the
text and spaces. -/
structure FixedColumns (width : Nat) (texts : List String) (line : String) : Prop where
  length : line.length = texts.length * width
  cell : ∀ (j : Nat) (text : String), texts[j]? = some text →
    Text.slice line (j * width) width = Text.padded width (text.toList.take width)

/-- **Columns that grow**: the cell of each text has the whole text and spaces up to a width, and
begins behind the cells of the texts before it. -/
structure GrownColumns (width : Nat) (texts : List String) (line : String) : Prop where
  length : line.length = (texts.map fun text => max width text.length).sum
  cell : ∀ (j : Nat) (text : String), texts[j]? = some text →
    Text.slice line ((texts.take j).map fun before => max width before.length).sum
      (max width text.length) = Text.padded width text.toList

/-- **Texts laid out both ways**, with cells that are cut and with cells that grow. -/
structure LaidOut (width : Nat) (texts : List String) (cut grown : String) : Prop where
  fixed : FixedColumns width texts cut
  growing : GrownColumns width texts grown
  /-- The policies differ over texts that are longer than the width, and over these only. -/
  same_iff : cut = grown ↔ ∀ text ∈ texts, text.length ≤ width

namespace Renderer

/-! ### Cells -/

/-- A cut cell has the first characters of its text. -/
theorem toList_cell_truncate (width : Nat) (text : String) :
    (cell ⟨width, .truncate⟩ text).toList = Text.padded width (text.toList.take width) := by
  rw [cell, String.toList_ofList]
  rfl

/-- A cell that grows has the whole of its text. -/
theorem toList_cell_grow (width : Nat) (text : String) :
    (cell ⟨width, .grow⟩ text).toList = Text.padded width text.toList := by
  rw [cell, String.toList_ofList]
  rfl

/-- Cut cells are all of one width. -/
theorem length_cell_truncate (width : Nat) (text : String) :
    (cell ⟨width, .truncate⟩ text).length = width := by
  rw [← String.length_toList, toList_cell_truncate, Text.length_padded, List.length_take]
  omega

/-- Grown cells are as wide as their text needs. -/
theorem length_cell_grow (width : Nat) (text : String) :
    (cell ⟨width, .grow⟩ text).length = max width text.length := by
  rw [← String.length_toList, toList_cell_grow, Text.length_padded, String.length_toList]

/-- A text that fits is shown alike under both policies. -/
theorem cell_truncate_eq_grow {width : Nat} {text : String} (fits : text.length ≤ width) :
    cell ⟨width, .truncate⟩ text = cell ⟨width, .grow⟩ text := by
  apply String.toList_inj.1
  rw [toList_cell_truncate, toList_cell_grow, List.take_of_length_le]
  rwa [String.length_toList]

/-! ### Lines of cells -/

section Cells

variable (r : Renderer) {texts : List String}

/-- A line is its cells, one behind the other. -/
theorem toList_cells (texts : List String) :
    (r.cells texts).toList = (texts.map fun text => (r.cell text).toList).flatten := by
  rw [cells, String.toList_join, List.flatMap_map]
  rfl

theorem length_cells (texts : List String) :
    (r.cells texts).length = (texts.map fun text => (r.cell text).length).sum := by
  rw [← String.length_toList, toList_cells, List.length_flatten, List.map_map]
  simp only [Function.comp_def, String.length_toList]

/-- **Where a cell stands**: behind the cells before it. -/
theorem slice_cells {j : Nat} {text : String} (there : texts[j]? = some text) :
    Text.slice (r.cells texts) ((texts.take j).map fun before => (r.cell before).length).sum
      (r.cell text).length = (r.cell text).toList := by
  let blocks := texts.map fun text => (r.cell text).toList
  have before : ((texts.take j).map fun before => (r.cell before).length).sum
      = ((blocks.map List.length).take j).sum := by
    rw [List.map_map, ← List.map_take]
    simp only [Function.comp_def, String.length_toList]
  have block : blocks[j]? = some (r.cell text).toList := by
    rw [List.getElem?_map, there, Option.map_some]
  obtain ⟨within, here⟩ := List.getElem?_eq_some_iff.1 block
  calc Text.slice (r.cells texts) _ (r.cell text).length
      = (blocks.flatten.drop ((blocks.map List.length).take j).sum).take (r.cell text).length := by
        rw [Text.slice, toList_cells, before]
    _ = (blocks.drop j).flatten.take (r.cell text).length := by rw [List.drop_sum_flatten]
    -- the cell is the first of those that are left
    _ = ((r.cell text).toList ++ (blocks.drop (j + 1)).flatten).take (r.cell text).length := by
        rw [List.drop_eq_getElem_cons within, here, List.flatten_cons]
    _ = (r.cell text).toList := List.take_left' (String.length_toList)

end Cells

/-- Lines of cells that are cut have columns of one width. -/
theorem fixedColumns_cells (width : Nat) (texts : List String) :
    FixedColumns width texts (cells ⟨width, .truncate⟩ texts) where
  length := by
    rw [length_cells]
    simp only [length_cell_truncate, List.map_const', List.sum_replicate_nat]
  cell j text there := by
    -- the cells before this one are all of one width, so its own begins at a multiple
    have place := slice_cells ⟨width, .truncate⟩ there
    have short : j ≤ texts.length := (List.getElem?_eq_some_iff.1 there).1.le
    simp only [length_cell_truncate, List.map_const', List.sum_replicate_nat,
      List.length_take, min_eq_left short] at place
    rw [place, toList_cell_truncate]

/-- Lines of cells that grow have columns that grow. -/
theorem grownColumns_cells (width : Nat) (texts : List String) :
    GrownColumns width texts (cells ⟨width, .grow⟩ texts) where
  length := by
    rw [length_cells]
    simp only [length_cell_grow]
  cell j text there := by
    have place := slice_cells ⟨width, .grow⟩ there
    simp only [length_cell_grow] at place
    rw [place, toList_cell_grow]

/-- **A line of cells** under either policy. -/
theorem laid_cells (width : Nat) (texts : List String) :
    LaidOut width texts (cells ⟨width, .truncate⟩ texts) (cells ⟨width, .grow⟩ texts) where
  fixed := fixedColumns_cells width texts
  growing := grownColumns_cells width texts
  same_iff := by
    constructor
    · intro same
      by_contra longer
      push Not at longer
      obtain ⟨text, member, long⟩ := longer
      -- one cell more than the width, and none less
      have more : (texts.map fun _ => width).sum
          < (texts.map fun text => max width text.length).sum :=
        List.sum_lt_sum _ _ (fun text _ => Nat.le_max_left ..)
          ⟨text, member, lt_of_lt_of_le long (Nat.le_max_right ..)⟩
      have lengths := congrArg String.length same
      rw [length_cells, length_cells] at lengths
      simp only [length_cell_truncate, length_cell_grow] at lengths
      omega
    · intro fit
      -- texts that are not longer than the width are padded by both in the same way
      have each : texts.map (cell ⟨width, .truncate⟩) = texts.map (cell ⟨width, .grow⟩) :=
        List.map_congr_left fun text member => cell_truncate_eq_grow (fit text member)
      rw [cells, each]
      rfl

/-! ### Headers and printed rows -/

/-- The texts of a header: for all columns the column parts of the names, else the headers. -/
def titles (sample : Row) (headers : List String) : List String :=
  if Projection.isWildcard headers then sample.schema.names.map columnPart else headers

theorem header_eq_cells (r : Renderer) (sample : Row) (headers : List String) :
    r.header sample headers = r.cells (titles sample headers) := by
  rw [header, titles]
  split <;> rfl

/-- **Printed lines are aligned.** A row is printed under some column list. Its references name
places in the schema, and under either policy the line lays out the values at these places. So does
the header with its texts, whatever it is a header of. -/
theorem lines_aligned {width : Nat} {policy : Overflow} {row : Row} {keys : List String}
    {line : String} (printed : (Renderer.mk width policy).line row keys = .ok line)
    (headers : List String) :
    let cut : Renderer := ⟨width, .truncate⟩
    let grown : Renderer := ⟨width, .grow⟩
    LaidOut width (titles row headers) (cut.header row headers) (grown.header row headers) ∧
    ∃ places values cutLine grownLine,
      List.Forall₂ row.schema.Names (references row keys) places ∧
      List.Forall₂ (fun i v => row.values[i]? = some v) places values ∧
      cut.line row keys = .ok cutLine ∧ grown.line row keys = .ok grownLine ∧
      LaidOut width (values.map Value.print) cutLine grownLine := by
  intro cut grown
  constructor
  · rw [header_eq_cells, header_eq_cells]
    exact laid_cells width (titles row headers)
  · -- what is fetched does not depend on the layout
    obtain ⟨texts, fetched, -⟩ := bind_eq_ok_iff.1 printed
    obtain ⟨places, values, named, there, rfl⟩ := exists_of_fieldTexts fetched
    refine ⟨places, values, _, _, named, there, ?_, ?_, laid_cells width (values.map Value.print)⟩
    · rw [Renderer.line, fetched, ok_bind]
    · rw [Renderer.line, fetched, ok_bind]

/-- A text that is longer than its cell, one with a character of two bytes that is as long, and a
number that is shorter. Cut, the last cell begins at the eighth character, and grown at the
fifteenth. -/
theorem lines_aligned_overlong :
    let cut : Renderer := ⟨4, .truncate⟩
    let grown : Renderer := ⟨4, .grow⟩
    let schema : Schema := ⟨[⟨"name", .text⟩, ⟨"café", .text⟩, ⟨"age", .int⟩], by decide, by decide⟩
    let row : Row := ⟨schema, [.text "Bartholomew", .text "élan", .int 19], rfl⟩
    cut.line row ["*"] = .ok "Bartélan19  " ∧ grown.line row ["*"] = .ok "Bartholomewélan19  " ∧
      LaidOut 4 ["name", "café", "age"] "namecaféage " "namecaféage " ∧
      LaidOut 4 ["Bartholomew", "élan", "19"] "Bartélan19  " "Bartholomewélan19  " ∧
      Text.slice "Bartélan19  " 8 4 = ['1', '9', ' ', ' '] ∧
      Text.slice "Bartholomewélan19  " 15 4 = ['1', '9', ' ', ' '] := by
  intro cut grown schema row
  have printed : cut.line row ["*"] = .ok "Bartélan19  " := by decide +kernel
  have printed' : grown.line row ["*"] = .ok "Bartholomewélan19  " := by decide +kernel
  obtain ⟨header, places, values, cutLine, grownLine, named, there, cutIs, grownIs, laid⟩ :=
    lines_aligned printed ["*"]
  -- both header lines are four characters to a name, as none is longer
  have names : titles row ["*"] = ["name", "café", "age"] := by decide +kernel
  have headers : cut.header row ["*"] = "namecaféage " ∧
      grown.header row ["*"] = "namecaféage " := by
    decide +kernel
  -- the three names stand at the three places, and there are the three values
  have stored : references row ["*"] = row.schema.names := by decide +kernel
  rw [stored] at named
  obtain rfl := Schema.Names.places_unique named row.schema.names_forall₂_range
  have own : List.Forall₂ (fun i v => row.values[i]? = some v) (List.range row.schema.size)
      row.values := by
    decide +kernel
  have unique : Relator.RightUnique fun (i : Nat) v => row.values[i]? = some v :=
    fun _ _ _ here here' => Option.some.inj (here.symm.trans here')
  obtain rfl := List.right_unique_forall₂' unique there own
  have texts : row.values.map Value.print = ["Bartholomew", "élan", "19"] := by decide +kernel
  rw [printed] at cutIs
  rw [printed'] at grownIs
  rw [names, headers.1, headers.2] at header
  rw [texts, ← Except.ok.inj cutIs, ← Except.ok.inj grownIs] at laid
  exact ⟨printed, printed', header, laid, laid.fixed.cell 2 "19" rfl, laid.growing.cell 2 "19" rfl⟩

end Renderer

end RelEngine
