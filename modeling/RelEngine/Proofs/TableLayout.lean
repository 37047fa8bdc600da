import RelEngine.Proofs.Lowering
import RelEngine.Proofs.References

/-!
# Header and rows of a printed result

The header of a result and the lines of its rows are made separately. Whether all columns are asked
for is found out on the headers for the one and on the keys for the other, and the places of the
values are looked up anew for each row. Here both are measured by the same list of **places** in the
schema that the rows share: every line shows the values at these places, cell by cell (`Row.Shows`),
and the header has one title for each of them, which names the field there (`Schema.Titles`).

What a title of a written list names depends on the number of sources alone. With several sources it is
the reference as written, and with a single one it is the part behind the point (`Schema.Heads`). The
titles of the wildcard name the columns of all sources as these were declared, in their order.

Header and rows part in two cases. With a single source the key of a first reference `t.*` is `*`,
which stands for all columns, but the header is not. And a name that holds the qualifier itself is cut
in the header of the wildcard, as if a table stood before it (`DeclaredColumn.Unqualified`).

* `Renderer.exists_places`, `Renderer.exists_titles` — the places behind the lines of a result, and
  the titles over them;
* `Query.fields_sourceSchema` — the fields of the rows are the declared columns, one by one;
* `Engine.execute_lines_up` — apart from these cases, header and rows line up;
* `Engine.qualified_wildcard_does_not_line_up` — in the first of them they do not.
-/

namespace RelEngine

/-! ### What titles name -/

/-- **What a header names**, with a single source or with several: the place of a field. -/
inductive Schema.Heads (s : Schema) (single : Bool) : String → Nat → Prop
  /-- With several sources, and without a point, the header is the reference. -/
  | whole {header : String} {i : Nat} (h : single = false ∨ referencePoint ∉ header.toList)
      (names : s.Names header i) : Heads s single header i
  /-- With a single source the reference stands behind the first point. -/
  | behind {table column : String} {i : Nat} (h : single = true)
      (first : referencePoint ∉ table.toList) (names : s.Names column i) :
      Heads s single (table ++ "." ++ column) i

/-- **A declared column**: a field, and the name of the table that it was declared for. -/
structure DeclaredColumn where
  table : String
  field : Field
deriving DecidableEq, Repr

/-- The columns of some tables, table by table and in the order of their declaration. -/
def declaredColumns (tables : List Relation) : List DeclaredColumn :=
  tables.flatMap fun r => r.schema.fields.map fun f => ⟨r.name, f⟩

namespace DeclaredColumn

/-- No qualifier stands in the names that the column goes by. The name of its table is one of them
with several sources only. -/
def Unqualified (c : DeclaredColumn) (single : Bool) : Prop :=
  qualifier ∉ c.field.name.toList ∧ (single = false → qualifier ∉ c.table.toList)

/-- **Where a declared column is kept** in rows of its sources: in a field of the declared type, under
its own name with a single source and behind the name of its table with several. -/
def KeptIn (c : DeclaredColumn) (single : Bool) (f : Field) : Prop :=
  f.type = c.field.type ∧ (c.Unqualified single →
    f.name = if single then c.field.name else qualify c.table c.field.name)

/-- **The title of a declared column** is its own name. -/
def Titled (c : DeclaredColumn) (single : Bool) (title : String) : Prop :=
  c.Unqualified single → title = c.field.name

end DeclaredColumn

/-- **The titles** of a list of headers over some tables, and the places that they stand over in the
schema of the rows. -/
inductive Schema.Titles (s : Schema) (tables : List Relation) :
    List String → List String → List Nat → Prop
  /-- The wildcard stands for all columns of the tables in their order, and each is at its place. -/
  | all (rest : List String) {titles : List String}
      (kept : List.Forall₂ (fun c f => c.KeptIn (tables.length == 1) f)
        (declaredColumns tables) s.fields)
      (titled : List.Forall₂ (fun c title => c.Titled (tables.length == 1) title)
        (declaredColumns tables) titles) :
      Titles s tables (Projection.wildcard :: rest) titles (List.range s.size)
  /-- Other headers are titles as they are written, each over the field that it names. -/
  | listed {headers : List String} {places : List Nat}
      (h : headers.head? ≠ some Projection.wildcard)
      (each : List.Forall₂ (s.Heads (tables.length == 1)) headers places) :
      Titles s tables headers headers places

/-- The line shows the values at some places of a row, cell by cell. -/
def Row.Shows (row : Row) (renderer : Renderer) (places : List Nat) (line : String) : Prop :=
  ∃ values, List.Forall₂ (fun i v => row.values[i]? = some v) places values ∧
    line = renderer.cells (values.map Value.print)

namespace Schema

variable {s : Schema} {single : Bool}

/-- A header names what its key names. -/
theorem heads_iff_names_key {header : String} {i : Nat} :
    s.Heads single header i ↔ s.Names (Projection.key single header) i := by
  constructor
  · rintro (⟨several | bare, names⟩ | ⟨rfl, first, names⟩)
    · rw [several, Projection.key]
      split <;> exact names
    · rw [Projection.key_plain bare]
      exact names
    · rw [Projection.key_point first]
      exact names
  · -- the key has been cut at a point or not, and with several sources it is never cut
    intro names
    rw [Projection.key] at names
    split at names
    · next table column cut =>
      obtain ⟨first, rfl⟩ := eq_of_splitAtFirst cut
      cases single with
      | true => exact .behind rfl first names
      | false => exact .whole (.inl rfl) names
    · next uncut => exact .whole (.inr (Text.splitAtFirst_eq_none_iff.1 uncut)) names

/-- There is one title for each place. -/
theorem Titles.length_eq {tables : List Relation} {headers titles : List String} {places : List Nat}
    (h : s.Titles tables headers titles places) : titles.length = places.length := by
  cases h with
  | all rest kept titled => rw [← titled.length_eq, kept.length_eq, List.length_range]
  | listed _ each => exact each.length_eq

/-- References name their places in one way only. -/
theorem Names.places_unique {references : List String} {places places' : List Nat}
    (h : List.Forall₂ s.Names references places) (h' : List.Forall₂ s.Names references places') :
    places = places' := by
  have unique : Relator.RightUnique s.Names := fun _ _ _ => Names.unique
  exact List.right_unique_forall₂' unique h h'

/-- The stored names, in order, name the places from the first to the last. -/
theorem names_forall₂_range (s : Schema) :
    List.Forall₂ s.Names s.names (List.range s.size) := by
  refine List.forall₂_iff_get.2 ⟨by rw [names, List.length_map, List.length_range], ?_⟩
  intro i named _
  rw [names, List.length_map] at named
  -- a name that is stored names its own place before any other rule applies
  have there : s.fields[i]? = some s.fields[i] := List.getElem?_eq_getElem named
  simpa [names] using Names.stored there

end Schema

/-! ### The places of a line -/

namespace Renderer

variable {row : Row}

/-- A printed text is that of the value at the place which the reference names. -/
theorem exists_of_fieldText {reference text : String} (h : fieldText row reference = .ok text) :
    ∃ i, row.schema.Names reference i ∧ ∃ v, row.values[i]? = some v ∧ text = v.print := by
  obtain ⟨type, typed, h⟩ := bind_eq_ok_iff.1 h
  obtain ⟨value, got, shown⟩ := bind_eq_ok_iff.1 h
  rw [Row.get] at got
  cases found : row.schema.position reference with
  | error e => rw [found] at got; cases got
  | ok i =>
    rw [found] at got
    refine ⟨i.1, Schema.position_eq_ok_iff_names.1 found, value, ?_, ?_⟩
    · rw [← Except.ok.inj got]
      exact List.getElem?_eq_getElem _
    · -- whatever is printed, it is the value
      unfold shownValue at shown
      split at shown
      · exact (Except.ok.inj shown).symm
      · exact (Except.ok.inj shown).symm
      · cases shown

/-- Printed texts are those of the values at the places which the references name. -/
theorem exists_of_fieldTexts {references texts : List String}
    (h : references.mapM (fieldText row) = .ok texts) :
    ∃ places values, List.Forall₂ row.schema.Names references places ∧
      List.Forall₂ (fun i v => row.values[i]? = some v) places values ∧
      texts = values.map Value.print := by
  have each := (mapM_eq_ok_iff.1 h).imp fun _ _ => exists_of_fieldText
  obtain ⟨places, named, each⟩ := forall₂_exists_iff.1 each
  obtain ⟨values, there, printed⟩ := forall₂_exists_iff.1 each
  exact ⟨places, values, named, there, eq_map_iff_forall₂.2 printed⟩

/-- A printed line shows the places that its references name. -/
theorem exists_of_line {r : Renderer} {keys : List String} {line : String}
    (h : r.line row keys = .ok line) :
    ∃ places, List.Forall₂ row.schema.Names (references row keys) places ∧
      row.Shows r places line := by
  obtain ⟨texts, fetched, h⟩ := bind_eq_ok_iff.1 h
  obtain ⟨places, values, named, there, rfl⟩ := exists_of_fieldTexts fetched
  exact ⟨places, named, values, there, (Except.ok.inj h).symm⟩

/-- **The places of a result.** Rows of one schema are printed from the same places. -/
theorem exists_places {r : Renderer} {keys : List String} {sample : Row} {rest : List Row}
    {lines : List String} (alike : ∀ row ∈ rest, row.schema = sample.schema)
    (each : List.Forall₂ (fun row line => r.line row keys = .ok line) (sample :: rest) lines) :
    ∃ places, List.Forall₂ sample.schema.Names (references sample keys) places ∧
      List.Forall₂ (fun row line => row.Shows r places line) (sample :: rest) lines := by
  cases each with
  | @cons _ line _ lines here others =>
    obtain ⟨places, named, shown⟩ := exists_of_line here
    refine ⟨places, named, .cons shown ?_⟩
    have others := (List.forall₂_and_left rest lines).2 ⟨alike, others⟩
    refine others.imp fun row line => ?_
    rintro ⟨same, printed⟩
    -- another row looks its places up anew, and under the same schema it finds the same
    obtain ⟨places', named', shown'⟩ := exists_of_line printed
    have expanded : references row keys = references sample keys := by
      rw [references, references, same]
    rw [expanded, same] at named'
    rw [Schema.Names.places_unique named named']
    exact shown'

/-- A result with rows is their number, the header over the first of them, and one line for each. -/
theorem exists_of_table {r : Renderer} {sample : Row} {rest : List Row} {p : Projection}
    {printed : List String} (h : r.table (sample :: rest) p = .ok printed) :
    ∃ lines,
      List.Forall₂ (fun row line => r.line row p.keys = .ok line) (sample :: rest) lines ∧
      printed = s!"Rows returned: {(sample :: rest).length}" :: r.header sample p.headers
        :: lines := by
  obtain ⟨lines, each, h⟩ := bind_eq_ok_iff.1 h
  exact ⟨lines, mapM_eq_ok_iff.1 each, (Except.ok.inj h).symm⟩

end Renderer

/-! ### Titles over the places -/

namespace Projection

/-- All columns are asked for by the first reference. -/
theorem isWildcard_eq_true_iff {references : List String} :
    isWildcard references = true ↔ references.head? = some wildcard := by
  cases references with
  | nil => simp [isWildcard]
  | cons first rest => simp [isWildcard]

/-- The wildcard is its own key, since there is no point in it. -/
theorem key_wildcard (single : Bool) : key single wildcard = wildcard :=
  key_plain (by decide) single

/-- Headers that ask for all columns have keys that do. -/
theorem isWildcard_map_key (single : Bool) {headers : List String}
    (wild : isWildcard headers = true) : isWildcard (headers.map (key single)) = true := by
  rw [isWildcard_eq_true_iff] at wild ⊢
  rw [List.head?_map, wild, Option.map_some, key_wildcard]

/-- A key that is the wildcard comes from the wildcard, or from one behind a point with a single
source. -/
theorem eq_of_key_eq_wildcard {single : Bool} {header : String}
    (h : key single header = wildcard) :
    header = wildcard ∨ single = true ∧ ∃ table, header = table ++ "." ++ wildcard := by
  rw [key] at h
  split at h
  · next table column cut =>
    cases single with
    | true =>
      obtain rfl : column = wildcard := h
      exact .inr ⟨rfl, table, (Schema.eq_of_splitAtFirst cut).2⟩
    | false => exact .inl h
  · exact .inl h

/-- Headers and keys agree on whether all columns are asked for, unless a single source has a point
before the wildcard. -/
theorem isWildcard_keys {single : Bool} {headers : List String}
    (unstarred : single = true → ∀ table, headers.head? ≠ some (table ++ "." ++ wildcard)) :
    isWildcard (headers.map (key single)) = isWildcard headers := by
  rw [Bool.eq_iff_iff]
  refine ⟨?_, isWildcard_map_key single⟩
  rw [isWildcard_eq_true_iff, isWildcard_eq_true_iff, List.head?_map, Option.map_eq_some_iff]
  rintro ⟨first, head, starred⟩
  rcases eq_of_key_eq_wildcard starred with rfl | ⟨one, table, rfl⟩
  · exact head
  · exact absurd head (unstarred one table)

end Projection

/-! ### Columns of the sources -/

namespace DeclaredColumn

variable {c : DeclaredColumn} {single : Bool}

/-- The field of a declared column in rows of its sources. -/
def stored (single : Bool) (c : DeclaredColumn) : Field :=
  if single then c.field else { c.field with name := qualify c.table (columnPart c.field.name) }

/-- Without a qualifier in it, the name is kept whole. -/
theorem keptIn_stored (c : DeclaredColumn) (single : Bool) : c.KeptIn single (c.stored single) := by
  cases single with
  | true => exact ⟨rfl, fun _ => rfl⟩
  | false => exact ⟨rfl, fun plain => congrArg (qualify c.table) (columnPart_of_unqualified plain.1)⟩

/-- What is cut off the stored name is the name of the table, if that was put before it. -/
theorem titled_stored (c : DeclaredColumn) (single : Bool) :
    c.Titled single (columnPart (c.stored single).name) := by
  -- the first qualifier in the stored name is the one that was put there
  rintro ⟨plain, front⟩
  cases single with
  | true => exact columnPart_of_unqualified plain
  | false =>
    have cut := splitAtFirst_qualify (front rfl) (columnPart c.field.name)
    change columnPart (qualify c.table (columnPart c.field.name)) = c.field.name
    rw [columnPart, cut]
    exact columnPart_of_unqualified plain

end DeclaredColumn

/-- **The fields of a query's rows** are the columns of its tables, one by one and in their order. -/
theorem Query.fields_sourceSchema {tables : List Relation} {schema : Schema}
    (h : sourceSchema tables = .ok schema) :
    schema.fields = (declaredColumns tables).map (DeclaredColumn.stored (tables.length == 1)) := by
  rcases tables with _ | ⟨only, _ | ⟨inner, inners⟩⟩
  · cases h
  · -- a single source keeps its schema
    obtain rfl := Except.ok.inj h
    rw [declaredColumns, List.flatMap_singleton, List.map_map]
    exact (List.map_id _).symm
  · -- several sources have their fields qualified, one table after the other
    change Schema.qualified _ = .ok schema at h
    rw [Schema.ofFields_eq_ok_iff.1 h, List.flatMap_map, declaredColumns, List.map_flatMap]
    refine List.flatMap_congr fun r _ => ?_
    rw [Schema.qualifiedFields, List.map_map]
    rfl

/-- **Header and places.** The header has titles for the places that the keys stand for. -/
theorem Renderer.exists_titles {sample : Row} {tables : List Relation} {headers : List String}
    {places : List Nat} (source : Query.sourceSchema tables = .ok sample.schema)
    (unstarred : tables.length = 1 →
      ∀ table, headers.head? ≠ some (table ++ "." ++ Projection.wildcard))
    (named : List.Forall₂ sample.schema.Names
      (references sample (headers.map (Projection.key (tables.length == 1)))) places) (r : Renderer) :
    ∃ titles, sample.schema.Titles tables headers titles places ∧
      r.header sample headers = r.cells titles := by
  -- headers and keys agree on whether all columns are asked for, so one case split serves both
  rw [references, Projection.isWildcard_keys fun single => unstarred (by simpa using single)] at named
  rw [header]
  cases wild : Projection.isWildcard headers with
  | true =>
    rw [wild, if_pos rfl] at named
    -- the places of all columns are counted through
    obtain rfl := Schema.Names.places_unique named sample.schema.names_forall₂_range
    obtain ⟨rest, rfl⟩ := List.head?_eq_some_iff.1 (Projection.isWildcard_eq_true_iff.1 wild)
    have fields := Query.fields_sourceSchema source
    refine ⟨_, .all rest ?_ ?_, rfl⟩
    · rw [fields, List.forall₂_map_right_iff, List.forall₂_same]
      exact fun c _ => c.keptIn_stored _
    · rw [Schema.names, fields, List.map_map, List.map_map, List.forall₂_map_right_iff,
        List.forall₂_same]
      exact fun c _ => c.titled_stored _
  | false =>
    rw [wild, if_neg Bool.false_ne_true, List.forall₂_map_left_iff] at named
    have unexpanded : headers.head? ≠ some Projection.wildcard := by
      intro starred
      rw [Projection.isWildcard_eq_true_iff.2 starred] at wild
      cases wild
    exact ⟨headers, .listed unexpanded (named.imp fun _ _ => Schema.heads_iff_names_key.2), rfl⟩

/-! ### The rows of a query -/

/-- The rows that a condition keeps are among the others, in their order. -/
theorem keepRows_sublist {condition : Row → Except Error Bool} {rows kept : List Row}
    (h : keepRows condition rows = .ok kept) : kept.Sublist rows := by
  induction rows generalizing kept with
  | nil => rw [← Except.ok.inj h]
  | cons row rest ih =>
    obtain ⟨b, -, h⟩ := bind_eq_ok_iff.1 h
    cases b with
    | true =>
      obtain ⟨others, keep, h⟩ := bind_eq_ok_iff.1 h
      rw [← Except.ok.inj h]
      exact (ih keep).cons_cons row
    | false => exact (ih h).cons row

/-- And so are those that do not repeat one before. -/
theorem firstRows_sublist {key : Row → Except Error (List Value)} {seen : List (List Value)}
    {rows kept : List Row} (h : firstRows key seen rows = .ok kept) : kept.Sublist rows := by
  induction rows generalizing seen kept with
  | nil => rw [← Except.ok.inj h]
  | cons row rest ih =>
    obtain ⟨k, -, h⟩ := bind_eq_ok_iff.1 h
    split at h
    · exact (ih h).cons row
    · obtain ⟨others, keep, h⟩ := bind_eq_ok_iff.1 h
      rw [← Except.ok.inj h]
      exact (ih keep).cons_cons row

namespace Query

/-- A query that gives rows has found its tables. -/
theorem exists_relations {q : Query} {c : Catalog} {m : Memory} {rows : List Row}
    (h : (q.execute c m).rows = .ok rows) :
    ∃ tables, q.relations c = .ok tables ∧ q.rows tables = .ok rows := by
  cases there : q.relations c with
  | error e =>
    rw [execute, there] at h
    cases h
  | ok tables => exact ⟨tables, rfl, by rw [← execute_rows_eq m there, h]⟩

/-- The rows of a query are among those that it starts from, in the same order. -/
theorem exists_source {q : Query} {tables : List Relation} {rows : List Row}
    (h : q.rows tables = .ok rows) :
    ∃ source, sourceRows tables = .ok source ∧ rows.Sublist source := by
  obtain ⟨source, start, h⟩ := bind_eq_ok_iff.1 h
  obtain ⟨kept, keep, h⟩ := bind_eq_ok_iff.1 h
  refine ⟨source, start, ?_⟩
  split at h
  · exact (firstRows_sublist h).trans (keepRows_sublist keep)
  · rw [← Except.ok.inj h]
    exact keepRows_sublist keep

/-- Sources that give rows have a schema. -/
theorem exists_sourceSchema_of_rows {tables : List Relation} {source : List Row}
    (nonempty : tables ≠ []) (h : sourceRows tables = .ok source) :
    ∃ schema, sourceSchema tables = .ok schema := by
  match tables, nonempty, h with
  | [only], _, _ => exact ⟨only.schema, rfl⟩
  | _ :: _ :: _, _, h =>
    obtain ⟨schema, qualifies, -⟩ := bind_eq_ok_iff.1 h
    exact ⟨schema, qualifies⟩

/-- All rows of a query have the schema of its sources. -/
theorem exists_schema {q : Query} {tables : List Relation} {rows : List Row}
    (sound : ∀ r ∈ tables, r.Sound) (nonempty : tables ≠ []) (h : q.rows tables = .ok rows) :
    ∃ schema, sourceSchema tables = .ok schema ∧ ∀ row ∈ rows, row.schema = schema := by
  obtain ⟨source, start, sublist⟩ := exists_source h
  obtain ⟨schema, schemaOf⟩ := exists_sourceSchema_of_rows nonempty start
  refine ⟨schema, schemaOf, fun row member => ?_⟩
  -- each row is the joined row of a combination
  obtain ⟨cs, product, joined⟩ := sourceRows_isCrossProduct sound schemaOf
  rw [start] at joined
  have started := sublist.subset member
  rw [Except.ok.inj joined] at started
  obtain ⟨c, hc, rfl⟩ := List.mem_map.1 started
  exact ((product.mem_iff c).1 hc).joined.1

end Query

namespace Engine

/-- **Header and rows line up.** A query succeeds with at least one row, and it is not over a single
source with a first reference that has the wildcard behind a point. Then what is written is the number
of rows, one line of titles, one line for each row, and the report. There are places in the schema of
the rows, with one title for each, that names the field there, and every line shows the values at these
places. A wildcard has the columns of all tables at its places, in the order of their declaration, and
each of them is titled by the name that it was declared with, as long as no qualifier is in it. -/
theorem execute_lines_up {σ : Type} [Sink σ] {e : Engine} (reachable : e.Reachable) {tree : Tree}
    {q : Query} (lowered : Statement.ofTree tree = .ok (.select q)) {rows : List Row}
    (answer : (q.execute e.catalog e.memory).rows = .ok rows) (nonempty : rows ≠ [])
    (unstarred : q.tables.length = 1 →
      ∀ table, q.projection.headers.head? ≠ some (table ++ "." ++ Projection.wildcard))
    {elapsed : Nat} {out : σ} (done : (e.execute elapsed tree out).result = .ok ()) :
    ∃ tables schema titles places lines,
      q.relations e.catalog = .ok tables ∧ Query.sourceSchema tables = .ok schema ∧
      (∀ row ∈ rows, row.schema = schema) ∧
      schema.Titles tables q.projection.headers titles places ∧
      titles.length = places.length ∧
      List.Forall₂ (fun row line => row.Shows e.renderer places line) rows lines ∧
      (e.execute elapsed tree out).sink
        = (Sink.putLines out (s!"Rows returned: {rows.length}" :: e.renderer.cells titles :: lines
            ++ (e.perform tree).report elapsed)).1 := by
  have origin := Statement.loweredFrom_of_select lowered
  -- the tables are there, and all rows have one schema
  obtain ⟨tables, there, selected⟩ := Query.exists_relations answer
  have found := Query.relations_eq_ok_iff.1 there
  obtain ⟨-, sound⟩ := reachable.sound_of_found found
  have some : tables ≠ [] := by
    rintro rfl
    exact origin.named (List.forall₂_nil_right_iff.1 found)
  obtain ⟨schema, source, alike⟩ := Query.exists_schema sound some selected
  obtain ⟨sample, rest, rfl⟩ := List.exists_cons_of_ne_nil nonempty
  obtain rfl := alike sample List.mem_cons_self
  -- what is printed is these rows laid out
  obtain ⟨printed, result, written⟩ := Outcome.exists_of_deliver_ok done
  have table : e.renderer.table (sample :: rest) q.projection = .ok printed := by
    rw [perform_result_of_ok lowered] at result
    change (q.execute e.catalog e.memory).rows.bind (fun rows => e.renderer.table rows q.projection)
      = _ at result
    rw [answer] at result
    exact result
  obtain ⟨lines, each, rfl⟩ := Renderer.exists_of_table table
  rw [origin.keys, found.length_eq] at each
  rw [found.length_eq] at unstarred
  -- the lines have places, and the header has titles for them
  obtain ⟨places, named, shown⟩ :=
    Renderer.exists_places (fun row member => alike row (List.mem_cons_of_mem _ member)) each
  obtain ⟨titles, titled, header⟩ := Renderer.exists_titles source unstarred named e.renderer
  refine ⟨tables, sample.schema, titles, places, lines, there, source, alike, titled,
    titled.length_eq, shown, ?_⟩
  rw [← header]
  exact written

/-- All columns of two tables that have a column of the same name. The titles are the names as they
were declared, and below them stand the values of either table. -/
theorem execute_lines_up_all :
    let e := (ofSettings .standard).calls
      ([.node "CREATE" [.node "TABLE" [.leaf "s"],
          .node "ATTRIBUTES" [.node "ATTRIBUTE" [.leaf "a", .leaf "INT"]]],
        .node "CREATE" [.node "TABLE" [.leaf "t"],
          .node "ATTRIBUTES" [.node "ATTRIBUTE" [.leaf "a", .leaf "STR20"]]],
        .node "INSERT" [.node "TABLE" [.leaf "s"], .node "VALUES" [.leaf "02"]],
        .node "INSERT" [.node "TABLE" [.leaf "t"], .node "VALUES" [.leaf "x"]]].map
        fun tree => .execute 0 tree Transcript.unlimited)
    let query : Tree := .node "SELECT" [.node "COLUMNS" [.node "COLUMN" [.leaf "*"]],
      .node "FROM" [.node "TABLE" [.leaf "s"], .node "TABLE" [.leaf "t"]]]
    let schema : Schema := ⟨[⟨"s#a", .int⟩, ⟨"t#a", .text⟩], by decide, by decide⟩
    let row : Row := ⟨schema, [.int 2, .text "x"], rfl⟩
    ∃ lines, List.Forall₂ (fun row line => row.Shows e.renderer [0, 1] line) [row] lines ∧
      (e.execute 7 query Transcript.unlimited).sink
        = (Sink.putLines Transcript.unlimited ("Rows returned: 1" :: e.renderer.cells ["a", "a"]
            :: lines ++ (e.perform query).report 7)).1 := by
  intro e query schema row
  have reachable : e.Reachable := reachable_calls _ _
  let q : Query := ⟨⟨["*"], ["*"]⟩, false, ["s", "t"], none⟩
  have lowered : Statement.ofTree query = .ok (.select q) := by decide +kernel
  have answer : (q.execute e.catalog e.memory).rows = .ok [row] := by decide +kernel
  have several : q.tables.length = 1 →
      ∀ table, q.projection.headers.head? ≠ some (table ++ "." ++ Projection.wildcard) :=
    fun single => absurd single (by decide)
  have done : (e.execute 7 query Transcript.unlimited).result = .ok () := by decide +kernel
  obtain ⟨tables, schema', titles, places, lines, there, -, alike, titled, -, shown, written⟩ :=
    execute_lines_up reachable lowered answer (List.cons_ne_nil _ _) several done
  obtain rfl := alike row List.mem_cons_self
  -- the two tables as they are stored
  let outer : Schema := ⟨[⟨"a", .int⟩], by decide, by decide⟩
  let inner : Schema := ⟨[⟨"a", .text⟩], by decide, by decide⟩
  have stored : q.relations e.catalog = .ok [⟨"s", outer, [⟨outer, [.int 2], rfl⟩]⟩,
      ⟨"t", inner, [⟨inner, [.text "x"], rfl⟩]⟩] := by
    decide +kernel
  obtain rfl := Except.ok.inj (there.symm.trans stored)
  cases titled with
  | all rest kept titled =>
    change List.Forall₂ _ ([⟨"s", ⟨"a", .int⟩⟩, ⟨"t", ⟨"a", .text⟩⟩] : List DeclaredColumn) _ at titled
    obtain _ | ⟨first, _ | ⟨second, ⟨⟩⟩⟩ := titled
    -- no qualifier stands in the names of the tables and their columns
    obtain rfl := first ⟨by decide, fun _ => by decide⟩
    obtain rfl := second ⟨by decide, fun _ => by decide⟩
    have count : s!"Rows returned: {[row].length}" = "Rows returned: 1" := by decide +kernel
    rw [count] at written
    exact ⟨lines, shown, written⟩
  | listed h each => exact absurd rfl h

/-- The wildcard cuts a name that holds the qualifier, also where no table stands before it. -/
example : Renderer.standard.header
    ⟨⟨[⟨"in#id", .int⟩, ⟨"id", .int⟩], by decide, by decide⟩, [.int 1, .int 2], rfl⟩ ["*"]
      = Renderer.standard.cells ["id", "id"] := by
  decide +kernel

/-- **A qualified wildcard is no title.** The query asks a table of two columns for `t.*`. It succeeds,
and writes two values under one title, which names no field of the table. -/
theorem qualified_wildcard_does_not_line_up :
    let e := (ofSettings .standard).calls
      ([.node "CREATE" [.node "TABLE" [.leaf "t"],
          .node "ATTRIBUTES" [.node "ATTRIBUTE" [.leaf "a", .leaf "INT"],
            .node "ATTRIBUTE" [.leaf "b", .leaf "INT"]]],
        .node "INSERT" [.node "TABLE" [.leaf "t"], .node "VALUES" [.leaf "1", .leaf "2"]]].map
        fun tree => .execute 0 tree Transcript.unlimited)
    let query : Tree := .node "SELECT" [.node "COLUMNS" [.node "COLUMN" [.leaf "t.*"]],
      .node "FROM" [.node "TABLE" [.leaf "t"]]]
    let schema : Schema := ⟨[⟨"a", .int⟩, ⟨"b", .int⟩], by decide, by decide⟩
    let row : Row := ⟨schema, [.int 1, .int 2], rfl⟩
    let t : Relation := ⟨"t", schema, [row]⟩
    (e.execute 0 query Transcript.unlimited).result = .ok () ∧
      (e.perform query).result = .ok ["Rows returned: 1", e.renderer.cells ["t.*"],
        e.renderer.cells ["1", "2"]] ∧
      ∃ q, Statement.ofTree query = .ok (.select q) ∧ q.relations e.catalog = .ok [t] ∧
        (q.execute e.catalog e.memory).rows = .ok [row] ∧
        ¬ ∃ titles places, schema.Titles [t] q.projection.headers titles places := by
  intro e query schema row t
  have lowered : Statement.ofTree query = .ok (.select ⟨⟨["t.*"], ["*"]⟩, false, ["t"], none⟩) := by
    decide +kernel
  refine ⟨by decide +kernel, by decide +kernel, _, lowered, by decide +kernel, by decide +kernel, ?_⟩
  rintro ⟨titles, places, titled⟩
  -- under no reading of the list has the row its titles
  generalize listed : ["t.*"] = headers at titled
  cases titled with
  | all rest => exact absurd (List.cons.inj listed).1 (by decide)
  | listed h each =>
    rw [← listed] at each
    cases each with
    | @cons _ i _ _ heads _ =>
      -- its key is the wildcard, and that is no field
      have names : schema.Names (Projection.key true "t.*") i := Schema.heads_iff_names_key.1 heads
      have found := Schema.position_eq_ok_iff_names (i := ⟨i, names.lt_size⟩).2 names
      have absent : schema.position (Projection.key true "t.*") = .error (.columnNotFound "*") := by
        decide +kernel
      rw [absent] at found
      cases found

end Engine

end RelEngine
