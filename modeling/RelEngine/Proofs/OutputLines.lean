import RelEngine.Proofs.StatementOutput

/-!
# The lines of a printed table

A table of `n` rows is put out as `n + 2` texts, each with a line feed behind it. A reader of the
output sees as many lines if none of the texts has a line feed inside, and one more for each line
feed that has. The number of rows never has one. The header has those of the references as they are
written or, for all columns, of the names; a row has those of its texts. A text comes into a row as
it was inserted, joins hand it on, and a cell may cut it off but changes nothing in it. Nowhere on
the way is a line feed refused or replaced.

So the lines that are seen are the header and the rows if the references, the names and the stored
texts of the tables have no line feed (`Query.OnOneLine`). A quoted literal may have one, and what
stands behind it is seen as a line of its own.

* `Query.mem_values_of_source` — joined rows have stored values only;
* `Engine.execute_rows_on_lines` — how many lines are seen, and when they are those of the table;
* `Engine.stored_line_feed_is_a_line` — a stored text with a line feed is seen as two rows.
-/

namespace RelEngine

open Text (OneLine)

/-! ### Names -/

/-- The column part of a name has the characters of the name, or fewer. -/
theorem not_mem_columnPart {ch : Char} {name : String} (h : ch ∉ name.toList) :
    ch ∉ (columnPart name).toList := by
  unfold columnPart
  split
  · next table column cut =>
    obtain ⟨-, parts⟩ := Text.splitAtFirst_eq_some_iff.1 cut
    intro member
    refine h ?_
    rw [parts]
    exact List.mem_append_right _ (List.mem_cons_of_mem _ member)
  · exact h

/-- A qualified name adds the separator to the characters of the two names. -/
theorem not_mem_qualify {ch : Char} {table column : String} (other : ch ≠ qualifier)
    (inTable : ch ∉ table.toList) (inColumn : ch ∉ column.toList) :
    ch ∉ (qualify table column).toList := by
  rw [qualify, String.toList_ofList, List.mem_append, List.mem_cons, not_or, not_or]
  exact ⟨inTable, other, inColumn⟩

namespace Query

variable {tables : List Relation} {schema : Schema}

/-- The names in the schema of the sources have the characters of the tables' names, and the
separator. -/
theorem not_mem_sourceSchema {ch : Char} (other : ch ≠ qualifier)
    (avoid : ∀ r ∈ tables, r.NamesAvoid [ch]) (h : sourceSchema tables = .ok schema) :
    ∀ name ∈ schema.names, ch ∉ name.toList := by
  have own : ∀ r ∈ tables, ∀ f ∈ r.schema.fields, ch ∉ f.name.toList := fun r hr =>
    (avoid r hr ch (by simp)).2
  intro name member
  obtain ⟨f, hf, rfl⟩ := List.mem_map.1 member
  rcases tables with _ | ⟨outer, _ | ⟨inner, inners⟩⟩
  · cases h
  · -- a single source keeps its schema
    obtain rfl := Except.ok.inj h
    exact own outer (by simp) f hf
  · -- several sources have the qualified names, made of two names and the separator
    change Schema.qualified _ = .ok schema at h
    rw [Schema.ofFields_eq_ok_iff.1 h, List.flatMap_map, List.mem_flatMap] at hf
    obtain ⟨r, hr, hf⟩ := hf
    obtain ⟨g, hg, rfl⟩ := List.mem_map.1 hf
    exact not_mem_qualify other (avoid r hr ch (by simp)).1 (not_mem_columnPart (own r hr g hg))

/-! ### Values -/

/-- The parts of a combination are rows of the tables. -/
theorem exists_of_storedAt {positions : List Nat} {parts : List Row}
    (h : StoredAt tables positions parts) : ∀ part ∈ parts, ∃ r ∈ tables, part ∈ r.rows := by
  induction h with
  | nil => exact fun _ member => nomatch member
  | @cons r tables i positions row parts here rest ih =>
    rw [List.forall_mem_cons]
    constructor
    · exact ⟨r, List.mem_cons_self, List.mem_of_getElem? here⟩
    · intro part member
      obtain ⟨r', hr', stored⟩ := ih part member
      exact ⟨r', List.mem_cons_of_mem _ hr', stored⟩

/-- **Joined rows have stored values only.** -/
theorem mem_values_of_source (sound : ∀ r ∈ tables, r.Sound)
    (schemaOf : sourceSchema tables = .ok schema) {source : List Row}
    (start : sourceRows tables = .ok source) {row : Row} (member : row ∈ source) {v : Value}
    (value : v ∈ row.values) : ∃ r ∈ tables, ∃ stored ∈ r.rows, v ∈ stored.values := by
  obtain ⟨cs, product, joined⟩ := sourceRows_isCrossProduct sound schemaOf
  rw [start] at joined
  rw [Except.ok.inj joined] at member
  obtain ⟨c, hc, rfl⟩ := List.mem_map.1 member
  -- the value stands in one of the parts, and this part is stored
  have combination := (product.mem_iff c).1 hc
  rw [combination.joined.2] at value
  obtain ⟨part, inside, value⟩ := List.mem_flatMap.1 value
  obtain ⟨r, hr, stored⟩ := exists_of_storedAt combination.stored part inside
  exact ⟨r, hr, part, stored, value⟩

/-- **No line feed in a query and its tables**: not in a reference of the column list, not in the
name of a table or of a field, and not in a stored text. -/
structure OnOneLine (q : Query) (tables : List Relation) : Prop where
  references : ∀ reference ∈ q.projection.headers, OneLine reference
  names : ∀ r ∈ tables, r.NamesAvoid ['\n']
  texts : ∀ r ∈ tables, ∀ row ∈ r.rows, ∀ s, Value.text s ∈ row.values → OneLine s

end Query

/-! ### Headers and lines -/

namespace Renderer

variable {r : Renderer} {row : Row}

/-- A header is on one line if the references are and the stored names are. -/
theorem oneLine_header {headers : List String} (written : ∀ header ∈ headers, OneLine header)
    (names : ∀ name ∈ row.schema.names, OneLine name) : OneLine (r.header row headers) := by
  unfold header
  -- the header has column parts of the names for the wildcard, else the references
  split
  · refine oneLine_cells fun title member => ?_
    obtain ⟨name, stored, rfl⟩ := List.mem_map.1 member
    exact not_mem_columnPart (names name stored)
  · exact oneLine_cells written

/-- The line of a row is on one line if the texts of the row are. -/
theorem oneLine_line {keys : List String} {line : String} (h : r.line row keys = .ok line)
    (texts : ∀ s, Value.text s ∈ row.values → OneLine s) : OneLine line := by
  obtain ⟨places, -, values, shown, rfl⟩ := exists_of_line h
  refine oneLine_cells fun text member => ?_
  -- each cell shows a value of the row
  obtain ⟨v, value, rfl⟩ := List.mem_map.1 member
  obtain ⟨place, -, there⟩ := exists_of_mem_right shown value
  refine Value.oneLine_print ?_
  rintro s rfl
  exact texts s (List.mem_of_getElem? there)

end Renderer

/-- The line with the number of rows is on one line. -/
theorem oneLine_count (n : Nat) : OneLine s!"Rows returned: {n}" := by
  have words : OneLine "Rows returned: " := by decide
  exact Text.oneLine_append.2 ⟨words, Text.oneLine_toString_nat n⟩

namespace Engine

variable {σ : Type} [Sink σ] {out : σ} {e : Engine} {tree : Tree} {q : Query} {rows : List Row}

/-- **The lines of a printed table.** A query succeeds with at least one row. Above its report it
puts out the number of rows, the header and a line for each row. Cut at the line feeds, this is as
many lines as there are rows, and two, and one for each line feed in the header and the lines of the
rows. If there is no line feed in the references, the names and the stored texts, then what is cut
out are these `n + 2` lines themselves. -/
theorem execute_rows_on_lines (reachable : e.Reachable)
    (lowered : Statement.ofTree tree = .ok (.select q))
    (answer : (q.execute e.catalog e.memory).rows = .ok rows) (nonempty : rows ≠ [])
    {elapsed : Nat} (done : (e.execute elapsed tree out).result = .ok ()) :
    ∃ tables sample lines, q.relations e.catalog = .ok tables ∧ rows.head? = some sample ∧
      List.Forall₂ (fun row line => e.renderer.line row q.projection.keys = .ok line) rows lines ∧
      let header := e.renderer.header sample q.projection.headers
      let above := s!"Rows returned: {rows.length}" :: header :: lines
      (e.execute elapsed tree out).sink
        = (Sink.putLines out (above ++ (e.perform tree).report elapsed)).1 ∧
      (Text.linesOf (Text.lineBytes above)).length
        = rows.length + 2 + (Text.feeds header + (lines.map Text.feeds).sum) ∧
      (q.OnOneLine tables → above.length = rows.length + 2 ∧
        Text.linesOf (Text.lineBytes above) = above.map Text.utf8) := by
  have origin := Statement.loweredFrom_of_select lowered
  obtain ⟨tables, there, selected⟩ := Query.exists_relations answer
  have found := Query.relations_eq_ok_iff.1 there
  obtain ⟨-, sound⟩ := reachable.sound_of_found found
  have some : tables ≠ [] := by
    rintro rfl
    exact origin.named (List.forall₂_nil_right_iff.1 found)
  obtain ⟨schema, schemaOf, alike⟩ := Query.exists_schema sound some selected
  obtain ⟨source, start, sublist⟩ := Query.exists_source selected
  obtain ⟨sample, rest, rfl⟩ := List.exists_cons_of_ne_nil nonempty
  -- what is put out is the table of these rows, and the report
  obtain ⟨printed, result, written⟩ := Outcome.exists_of_deliver_ok done
  rw [perform_result_of_select lowered, answer] at result
  obtain ⟨lines, each, rfl⟩ := Renderer.exists_of_table result
  refine ⟨tables, sample, lines, there, rfl, each, written, ?_, fun clean => ?_⟩
  · -- each text is one line and one more for each line feed in it, and the number of rows has none
    have count : Text.feeds s!"Rows returned: {(sample :: rest).length}" = 0 :=
      Text.feeds_eq_zero_iff.2 (oneLine_count _)
    rw [Text.length_linesOf_lineBytes, List.map_cons, List.map_cons, List.sum_cons, List.sum_cons,
      List.length_cons, List.length_cons, ← each.length_eq, count, Nat.zero_add]
  · have names : ∀ name ∈ sample.schema.names, OneLine name := by
      rw [alike sample List.mem_cons_self]
      exact Query.not_mem_sourceSchema (by decide) clean.names schemaOf
    have header := e.renderer.oneLine_header clean.references names
    -- every text of a row was stored in one of the tables
    have texts : ∀ row ∈ sample :: rest, ∀ s, Value.text s ∈ row.values → OneLine s := by
      intro row member s text
      obtain ⟨r, hr, stored, inTable, text⟩ :=
        Query.mem_values_of_source sound schemaOf start (sublist.subset member) text
      exact clean.texts r hr stored inTable s text
    have shown : ∀ line ∈ lines, OneLine line := by
      intro line member
      obtain ⟨row, inRows, printed⟩ := exists_of_mem_right each member
      exact Renderer.oneLine_line printed (texts row inRows)
    constructor
    · rw [List.length_cons, List.length_cons, each.length_eq]
    · refine Text.linesOf_lineBytes ?_
      rw [List.forall_mem_cons, List.forall_mem_cons]
      exact ⟨oneLine_count _, header, shown⟩

/-- A text with a blank and with characters of two bytes, under the names of two tables. -/
theorem execute_rows_on_lines_joined :
    let e := (ofSettings .standard).calls
      ([.node "CREATE" [.node "TABLE" [.leaf "s"],
          .node "ATTRIBUTES" [.node "ATTRIBUTE" [.leaf "a", .leaf "INT"]]],
        .node "CREATE" [.node "TABLE" [.leaf "t"],
          .node "ATTRIBUTES" [.node "ATTRIBUTE" [.leaf "a", .leaf "STR20"]]],
        .node "INSERT" [.node "TABLE" [.leaf "s"], .node "VALUES" [.leaf "-3"]],
        .node "INSERT" [.node "TABLE" [.leaf "t"], .node "VALUES" [.leaf "é à"]]].map
        fun tree => .execute 0 tree Transcript.unlimited)
    let query : Tree := .node "SELECT" [.node "COLUMNS" [.node "COLUMN" [.leaf "t.a"],
      .node "COLUMN" [.leaf "s.a"]], .node "FROM" [.node "TABLE" [.leaf "s"],
      .node "TABLE" [.leaf "t"]]]
    let above := ["Rows returned: 1", "t.a               s.a               ",
      "é à               -3                "]
    (e.execute 7 query Transcript.unlimited).sink = (Sink.putLines Transcript.unlimited
        (above ++ (e.perform query).report 7)).1 ∧
      Text.linesOf (Text.lineBytes above) = above.map Text.utf8 := by
  intro e query above
  have reachable : e.Reachable := reachable_calls _ _
  let q : Query := ⟨⟨["t.a", "s.a"], ["t.a", "s.a"]⟩, false, ["s", "t"], none⟩
  let numbers : Schema := ⟨[⟨"a", .int⟩], by decide, by decide⟩
  let words : Schema := ⟨[⟨"a", .text⟩], by decide, by decide⟩
  let s : Relation := ⟨"s", numbers, [⟨numbers, [.int (-3)], rfl⟩]⟩
  let t : Relation := ⟨"t", words, [⟨words, [.text "é à"], rfl⟩]⟩
  let row : Row := ⟨⟨[⟨"s#a", .int⟩, ⟨"t#a", .text⟩], by decide, by decide⟩,
    [.int (-3), .text "é à"], rfl⟩
  have lowered : Statement.ofTree query = .ok (.select q) := by decide +kernel
  have answer : (q.execute e.catalog e.memory).rows = .ok [row] := by decide +kernel
  have done : (e.execute 7 query Transcript.unlimited).result = .ok () := by decide +kernel
  have stored : q.relations e.catalog = .ok [s, t] := by decide +kernel
  obtain ⟨tables, sample, lines, there, first, each, written, -, clean⟩ :=
    execute_rows_on_lines reachable lowered answer (List.cons_ne_nil _ _) done
  obtain rfl : [s, t] = tables := Except.ok.inj (stored.symm.trans there)
  obtain rfl : row = sample := Option.some.inj first
  -- the one line, and the header above it
  have shown : [row].mapM (fun row => e.renderer.line row q.projection.keys)
      = .ok ["é à               -3                "] := by decide +kernel
  obtain rfl := Except.ok.inj (shown.symm.trans (mapM_eq_ok_iff.2 each))
  have header : e.renderer.header row q.projection.headers
      = "t.a               s.a               " := by decide +kernel
  have count : s!"Rows returned: {[row].length}" = "Rows returned: 1" := by decide +kernel
  rw [header, count] at written clean
  refine ⟨written, (clean ⟨?_, ?_, ?_⟩).2⟩
  · decide
  · simp [Relation.NamesAvoid, s, t, numbers, words]
  · have text : OneLine "é à" := by decide
    simpa [s, t] using text

/-- **A stored line feed is a line.** One quoted literal is inserted, with a line feed inside. The
table has one row then, and the query for it puts out four lines and not three: the row is seen as
two. -/
theorem stored_line_feed_is_a_line :
    let e := (ofSettings .standard).calls
      (["(CREATE (TABLE t) (ATTRIBUTES (ATTRIBUTE a STR20)))",
        "(INSERT (TABLE t) (VALUES \"x\ny\"))"].map
        fun text => .executeText 0 text Transcript.unlimited)
    let query : Tree := .node "SELECT" [.node "COLUMNS" [.node "COLUMN" [.leaf "*"]],
      .node "FROM" [.node "TABLE" [.leaf "t"]]]
    let above := ["Rows returned: 1", "a                 ", "x\ny               "]
    let seen := ["Rows returned: 1", "a                 ", "x", "y               "]
    e.Reachable ∧ (e.execute 0 query Transcript.unlimited).result = .ok () ∧
      (∃ q row, Statement.ofTree query = .ok (.select q) ∧
        (q.execute e.catalog e.memory).rows = .ok [row] ∧ seen.length ≠ [row].length + 2) ∧
      (e.execute 0 query Transcript.unlimited).sink = (Sink.putLines Transcript.unlimited
        (above ++ (e.perform query).report 0)).1 ∧
      Text.linesOf (Text.lineBytes above) = seen.map Text.utf8 := by
  intro e query above seen
  let schema : Schema := ⟨[⟨"a", .text⟩], by decide, by decide⟩
  let q : Query := ⟨⟨["*"], ["*"]⟩, false, ["t"], none⟩
  let row : Row := ⟨schema, [.text "x\ny"], rfl⟩
  have lowered : Statement.ofTree query = .ok (.select q) := by decide +kernel
  have answer : (q.execute e.catalog e.memory).rows = .ok [row] := by decide +kernel
  have result : (e.perform query).result = .ok above := by decide +kernel
  obtain ⟨done, written⟩ :=
    (e.perform query).deliver_of_neverFails 0 Transcript.neverFails_unlimited
  rw [result] at done
  rw [Outcome.printed, result] at written
  -- a reader of the output cuts the stored text in two
  have cut : Text.linesOf (Text.lineBytes above) = seen.map Text.utf8 := by decide +kernel
  exact ⟨reachable_calls _ _, done, ⟨q, row, lowered, answer, by decide⟩, written, cut⟩

end Engine

end RelEngine
