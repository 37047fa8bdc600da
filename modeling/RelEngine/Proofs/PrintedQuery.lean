import RelEngine.Proofs.Delivery
import RelEngine.Proofs.NameResolution

/-!
# What a query prints

A query tree is followed here from its branches to the bytes in the sink. The tree asks for
references from tables (`Tree.Asks`) and is lowered to a query. The query gives the rows of the
cross product on which the condition is true. Each row is printed as a line, and lines and report
are delivered.

A reference is meant as a column of a table, by position. What is printed in its cell is the value of
that column in the stored row that the combination has taken from that table
(`Combination.Shows`), and it is this although four stages have to agree on names for it: the
resolver on keys, the executor on stored names, the schema on positions, and the printer on both the
type and the value that it fetches.

* `Tree.Asks.lowers` — what a query tree is lowered to;
* `exists_table` — rows of the cross product can always be printed;
* `Engine.execute_prints_columns` — what is written before the report.
-/

namespace RelEngine

/-! ### Lowering -/

/-- **A query tree** that asks for references, from tables, under a condition. Nothing is said about
branches that are passed over. -/
structure Tree.Asks (tree : Tree) (references names : List String) (condition : Option Condition) :
    Prop where
  select : tree.is .select = true
  columns : ∃ list, tree.branch .columns = some list ∧ Projection.isDistinct list = false ∧
    List.Forall₂ (fun entry reference => ∃ leaf, entry.firstChild? = some leaf ∧
      leaf.kind = reference) list.branches references
  sources : ∃ list, tree.branch .sources = some list ∧
    List.Forall₂ (fun entry name => entry.wrappedText = .ok name) list.branches names
  condition : tree.selection = .ok condition

/-- The condition as it is evaluated: on the rows of a single table without that table's prefix. -/
def Condition.over (names : List String) (condition : Option Condition) : Option Condition :=
  match names with
  | [only] => condition.map (·.unqualified only)
  | _ => condition

/-- The query that a list of references from some tables stands for. -/
def Query.ofReferences (references names : List String) (condition : Option Condition) : Query where
  projection := ⟨references, references.map (Projection.key (names.length == 1))⟩
  distinct := false
  tables := names
  selection := Condition.over names condition

namespace Tree.Asks

variable {tree : Tree} {references names : List String} {condition : Option Condition}

/-- **The list of a query** is resolved to its references and their keys. -/
theorem projection (h : tree.Asks references names condition) (listed : references ≠ [])
    (short : ∀ reference ∈ references, reference.toList.count referencePoint ≤ 1) :
    Projection.ofTree tree
      = .ok ⟨references, references.map (Projection.key (names.length == 1))⟩ := by
  obtain ⟨list, columns, plain, entries⟩ := h.columns
  obtain ⟨tables, sources, wrapped⟩ := h.sources
  -- without DISTINCT at the head the entries are the branches
  have own : Projection.entries list = list.branches := by
    unfold Projection.entries
    unfold Projection.isDistinct at plain
    cases first : list.firstChild? with
    | none => exact (List.head?_eq_none_iff.1 first).symm
    | some child =>
      rw [first] at plain
      dsimp only at plain ⊢
      rw [plain]
      rfl
  have nonempty : list.branches ≠ [] := by
    rintro empty
    rw [empty, List.forall₂_nil_left_iff] at entries
    exact listed entries
  -- no reference has too many parts
  have headers : list.branches.mapM Projection.reference = .ok references := by
    refine mapM_eq_ok_iff.2 ?_
    refine ((List.forall₂_and_left references list.branches).2 ⟨short, entries.flip⟩).flip.imp ?_
    rintro entry reference ⟨short, leaf, first, rfl⟩
    rw [Projection.reference, first]
    exact if_pos short
  rw [Projection.ofTree, required, required, columns, sources, ok_bind, ok_bind, own,
    if_neg (by simpa using nonempty), headers, wrapped.length_eq]
  rfl

/-- **The statement that a query tree spells.** -/
theorem lowers (h : tree.Asks references names condition) (listed : references ≠ [])
    (named : names ≠ [])
    (short : ∀ reference ∈ references, reference.toList.count referencePoint ≤ 1) :
    Statement.ofTree tree = .ok (.select (Query.ofReferences references names condition)) := by
  obtain ⟨list, columns, plain, -⟩ := h.columns
  obtain ⟨tables, sources, wrapped⟩ := h.sources
  -- the tree spells no other keyword, so it is lowered as a query
  have notCreate : tree.is .create = false := by
    rw [is_of_is h.select]
    decide
  have notInsert : tree.is .insert = false := by
    rw [is_of_is h.select]
    decide
  rw [Statement.ofTree, notCreate, notInsert, h.select]
  change Statement.selectOfTree tree = _
  rw [Statement.selectOfTree, h.projection listed short, ok_bind, required, columns, ok_bind,
    required, sources, ok_bind, mapM_eq_ok_iff.2 wrapped, ok_bind, plain]
  obtain _ | ⟨only, _ | ⟨second, rest⟩⟩ := names
  · exact absurd rfl named
  · -- here, and only here, the condition loses the table's prefix
    dsimp only
    rw [h.condition]
    rfl
  · dsimp only
    rw [h.condition]
    rfl

end Tree.Asks

/-! ### Lines -/

/-- The line shows the values of some columns in a combination, cell by cell. -/
def Combination.Shows (c : Combination) (renderer : Renderer) (columns : List Column)
    (line : String) : Prop :=
  ∃ values, List.Forall₂ (fun column v => c.value? column = some v) columns values ∧
    line = renderer.cells (values.map Value.print)

namespace Renderer

/-- **A printed result**: the number of lines, the headers and the lines, or nothing without
lines. -/
def framed (r : Renderer) (headers lines : List String) : List String :=
  match lines with
  | [] => []
  | _ :: _ => s!"Rows returned: {lines.length}" :: r.cells headers :: lines

/-- Lines that could be laid out are framed by their number and the header. -/
theorem table_of_lines {r : Renderer} {rows : List Row} {lines : List String} {p : Projection}
    (each : rows.mapM (fun row => r.line row p.keys) = .ok lines)
    (listed : Projection.isWildcard p.headers = false) :
    r.table rows p = .ok (r.framed p.headers lines) := by
  have length := (mapM_eq_ok_iff.1 each).length_eq
  match rows, lines, length with
  | [], [], _ => rfl
  | sample :: rest, line :: others, length =>
    rw [table, each, ok_bind, header, listed, length]
    rfl

end Renderer

section Lines

variable {tables : List Relation} {references : List String} {columns : List Column}
  {schema : Schema} {c : Combination}

/-- Without the wildcard's character in the names no list of references asks for all columns, and
neither does the list of their keys. -/
theorem isWildcard_of_refers (refers : List.Forall₂ (Refers tables) references columns)
    (avoid : ∀ r ∈ tables, r.NamesAvoid ['*']) (single : Bool) :
    Projection.isWildcard references = false ∧
      Projection.isWildcard (references.map (Projection.key single)) = false := by
  have free : ∀ reference ∈ references, '*' ∉ reference.toList := by
    intro reference member
    obtain ⟨column, -, refers⟩ := exists_of_mem_right refers.flip member
    exact refers.not_mem avoid (by decide)
  refine ⟨Projection.isWildcard_eq_false free, Projection.isWildcard_eq_false ?_⟩
  intro key member
  obtain ⟨reference, listed, rfl⟩ := List.mem_map.1 member
  exact Projection.not_mem_key (free reference listed) single

/-- **The line of a row of the cross product** shows the columns that are referred to. -/
theorem exists_line (refers : List.Forall₂ (Refers tables) references columns)
    (sound : ∀ r ∈ tables, r.Sound)
    (plain : ∀ r ∈ tables, r.NamesAvoid [referencePoint, qualifier, '*'])
    (source : Query.sourceSchema tables = .ok schema) (of : c.Of tables schema)
    (renderer : Renderer) :
    ∃ line, renderer.line c.row (references.map (Projection.key (tables.length == 1))) = .ok line ∧
      c.Shows renderer columns line := by
  have starless : ∀ r ∈ tables, r.NamesAvoid ['*'] := fun r hr => (plain r hr).mono (by simp)
  have plain : ∀ r ∈ tables, r.NamesAvoid [referencePoint, qualifier] := fun r hr =>
    (plain r hr).mono (by simp)
  have unexpanded := (isWildcard_of_refers refers starless (tables.length == 1)).2
  obtain ⟨values, shown, texts⟩ : ∃ values,
      List.Forall₂ (fun column v => c.value? column = some v) columns values ∧
        (references.map (Projection.key (tables.length == 1))).mapM (Renderer.fieldText c.row)
          = .ok (values.map Value.print) := by
    clear unexpanded
    -- reference by reference, each with the value of its column
    induction refers with
    | nil => exact ⟨[], .nil, rfl⟩
    | cons refers _ ih =>
      obtain ⟨values, shown, texts⟩ := ih
      obtain ⟨v, value, text⟩ := refers.fieldText_key sound plain source of
      refine ⟨v :: values, .cons value shown, ?_⟩
      rw [List.map_cons, List.mapM_cons, text, ok_bind, texts]
      rfl
  refine ⟨renderer.cells (values.map Value.print), ?_, values, shown, rfl⟩
  rw [Renderer.line, Renderer.references, unexpanded, if_neg Bool.false_ne_true, texts]
  rfl

/-- **Rows of the cross product are printed**, one line for each, under the references. -/
theorem exists_table (refers : List.Forall₂ (Refers tables) references columns)
    (sound : ∀ r ∈ tables, r.Sound)
    (plain : ∀ r ∈ tables, r.NamesAvoid [referencePoint, qualifier, '*'])
    (source : Query.sourceSchema tables = .ok schema) {cs : List Combination}
    (of : ∀ c ∈ cs, c.Of tables schema) (renderer : Renderer) :
    ∃ lines, renderer.table (cs.map Combination.row)
        ⟨references, references.map (Projection.key (tables.length == 1))⟩
          = .ok (renderer.framed references lines) ∧
      List.Forall₂ (fun c line => c.Shows renderer columns line) cs lines := by
  -- no reference is taken for the wildcard
  have starless : ∀ r ∈ tables, r.NamesAvoid ['*'] := fun r hr => (plain r hr).mono (by simp)
  have unexpanded := (isWildcard_of_refers refers starless true).1
  obtain ⟨lines, each, shown⟩ := exists_mapM_forall₂ fun c hc =>
    exists_line refers sound plain source (of c hc) renderer
  refine ⟨lines, Renderer.table_of_lines ?_ unexpanded, shown⟩
  rw [List.mapM_map]
  exact each

end Lines

/-! ### What is written -/

namespace Query

/-- Different tables have a common schema, when no name holds the qualifier. -/
theorem exists_sourceSchema {tables : List Relation} (nonempty : tables ≠ [])
    (apart : (tables.map Relation.name).Nodup)
    (unqualified : ∀ r ∈ tables, r.NamesAvoid [qualifier]) :
    ∃ schema, sourceSchema tables = .ok schema := by
  have qualifies : ∃ schema, Schema.qualified (tables.map fun r => (r.name, r.schema))
      = .ok schema := by
    refine Schema.exists_qualified (by simpa using nonempty) ?_ ?_
    · rw [List.map_map]
      exact apart
    · intro p hp
      obtain ⟨r, hr, rfl⟩ := List.mem_map.1 hp
      exact unqualified r hr qualifier (by simp)
  -- a single table keeps its own schema instead
  match tables, qualifies with
  | [], ⟨schema, h⟩ => exact ⟨schema, h⟩
  | [only], _ => exact ⟨only.schema, rfl⟩
  | _ :: _ :: _, ⟨schema, h⟩ => exact ⟨schema, h⟩

end Query

namespace Engine

/-- **A query prints the columns that it refers to.** Its tables are different, and their names hold
neither point nor qualifier nor the wildcard. Then they have a cross product, and if the condition is
decided on all of it the query succeeds. Before the report it writes nothing when no combination
qualifies, else the count, the references as written, and one line for each combination that
qualifies, in order. -/
theorem execute_prints_columns {σ : Type} [Sink σ] {e : Engine} (reachable : e.Reachable)
    {names : List String} {tables : List Relation}
    (there : List.Forall₂ (fun name r => e.catalog.find? name = some r) names tables)
    (named : names ≠ []) (apart : names.Nodup)
    (plain : ∀ r ∈ tables, r.NamesAvoid [referencePoint, qualifier, '*'])
    {references : List String} {columns : List Column} (listed : references ≠ [])
    (refers : List.Forall₂ (Refers tables) references columns)
    {tree : Tree} {condition : Option Condition} (asks : tree.Asks references names condition)
    (elapsed : Nat) {out : σ} (never : Sink.NeverFails out) :
    ∃ schema cs, Query.sourceSchema tables = .ok schema ∧ IsCrossProduct tables schema cs ∧
      ((∀ c ∈ cs, ∃ b, Condition.admits (Condition.over names condition) c.row = .ok b) →
        ∃ lines,
          List.Forall₂ (fun c line => c.Shows e.renderer columns line)
            (cs.filter fun c =>
              affirmed (Condition.admits (Condition.over names condition) c.row)) lines ∧
          (e.execute elapsed tree out).result = .ok () ∧
          (e.execute elapsed tree out).sink
            = (Sink.putLines out
                (e.renderer.framed references lines ++ (e.perform tree).report elapsed)).1) := by
  obtain ⟨rfl, sound⟩ := reachable.sound_of_found there
  have nonempty : tables ≠ [] := by simpa using named
  obtain ⟨schema, source⟩ := Query.exists_sourceSchema nonempty apart fun r hr =>
    (plain r hr).mono (by simp)
  obtain ⟨cs, product, rows⟩ := Query.sourceRows_isCrossProduct sound source
  refine ⟨schema, cs, source, product, fun decided => ?_⟩
  -- the tree is lowered, and the query gives the combinations that qualify
  have short : ∀ reference ∈ references, reference.toList.count referencePoint ≤ 1 := by
    intro reference member
    obtain ⟨column, -, refers⟩ := exists_of_mem_right refers.flip member
    exact refers.count_point_le fun r hr => (plain r hr).mono (by simp)
  have lowered := asks.lowers listed named short
  set q := Query.ofReferences references (tables.map Relation.name) condition
  have kept := q.execute_rows_of_decided e.memory rfl (Query.relations_eq_ok_iff.2 there) rows
    decided
  -- each of them is printed
  obtain ⟨lines, table, shown⟩ := exists_table refers sound plain source
    (fun c hc => (product.mem_iff c).1 (List.mem_of_mem_filter hc)) e.renderer
  have projection : q.projection
      = ⟨references, references.map (Projection.key (tables.length == 1))⟩ := by
    change Projection.mk references _ = _
    rw [List.length_map]
  have printed : (e.perform tree).result = .ok (e.renderer.framed references lines) := by
    rw [perform_result_of_ok lowered]
    change (q.execute e.catalog e.memory).rows.bind (fun rows => e.renderer.table rows q.projection)
      = _
    rw [kept, projection]
    exact table
  -- and nothing is lost on the way out
  have delivered := (e.perform tree).deliver_of_neverFails elapsed never
  rw [printed, Outcome.printed, printed] at delivered
  exact ⟨lines, shown, delivered⟩

/-- Columns of one name from two tables, in the order of the references. Of two pairs of rows one
qualifies. -/
theorem execute_prints_columns_pair :
    let e := (ofSettings .standard).calls
      ([.node "CREATE" [.node "TABLE" [.leaf "s"],
          .node "ATTRIBUTES" [.node "ATTRIBUTE" [.leaf "a", .leaf "INT"]]],
        .node "CREATE" [.node "TABLE" [.leaf "t"],
          .node "ATTRIBUTES" [.node "ATTRIBUTE" [.leaf "a", .leaf "STR20"]]],
        .node "INSERT" [.node "TABLE" [.leaf "s"], .node "VALUES" [.leaf "02"]],
        .node "INSERT" [.node "TABLE" [.leaf "t"], .node "VALUES" [.leaf "1"]],
        .node "INSERT" [.node "TABLE" [.leaf "t"], .node "VALUES" [.leaf "2"]]].map
        fun tree => .execute 0 tree Transcript.unlimited)
    let tree : Tree := .node "SELECT" [
      .node "COLUMNS" [.node "COLUMN" [.leaf "t.a"], .node "COLUMN" [.leaf "s.a"]],
      .node "FROM" [.node "TABLE" [.leaf "s"], .node "TABLE" [.leaf "t"]],
      .node "WHERE" [.node "=" [.leaf "s.a", .leaf "t.a"]]]
    let s : Schema := ⟨[⟨"a", .int⟩], by decide, by decide⟩
    let t : Schema := ⟨[⟨"a", .text⟩], by decide, by decide⟩
    let tables : List Relation := [⟨"s", s, [⟨s, [.int 2], rfl⟩]⟩,
      ⟨"t", t, [⟨t, [.text "1"], rfl⟩, ⟨t, [.text "2"], rfl⟩]⟩]
    let condition : Condition := .equal "s.a" "t.a"
    ∃ schema cs lines, IsCrossProduct tables schema cs ∧
      List.Forall₂ (fun c line => c.Shows e.renderer [⟨1, 0⟩, ⟨0, 0⟩] line)
        (cs.filter fun c => affirmed (Condition.admits (some condition) c.row)) lines ∧
      (e.execute 7 tree Transcript.unlimited).sink
        = (Sink.putLines Transcript.unlimited
            (e.renderer.framed ["t.a", "s.a"] lines ++ (e.perform tree).report 7)).1 := by
  intro e tree s t tables condition
  have reachable : e.Reachable := reachable_calls _ _
  have there : List.Forall₂ (fun name r => e.catalog.find? name = some r) ["s", "t"] tables := by
    decide +kernel
  have plain : ∀ r ∈ tables, r.NamesAvoid [referencePoint, qualifier, '*'] := by
    simp [Relation.NamesAvoid, tables, s, t, referencePoint, qualifier]
  -- the second table's column comes first
  have refers : List.Forall₂ (Refers tables) ["t.a", "s.a"] [⟨1, 0⟩, ⟨0, 0⟩] :=
    .cons (@Refers.point _ 1 0 ⟨"t", t, _⟩ ⟨"a", .text⟩ rfl rfl)
      (.cons (@Refers.point _ 0 0 ⟨"s", s, _⟩ ⟨"a", .int⟩ rfl rfl) .nil)
  have asks : tree.Asks ["t.a", "s.a"] ["s", "t"] (some condition) :=
    ⟨by decide, ⟨_, rfl, by decide, .cons ⟨_, rfl, rfl⟩ (.cons ⟨_, rfl, rfl⟩ .nil)⟩,
      ⟨_, rfl, .cons rfl (.cons rfl .nil)⟩, by decide⟩
  obtain ⟨schema, cs, source, product, printed⟩ := execute_prints_columns reachable there
    (by decide) (by decide) plain (by decide) refers asks 7 Transcript.neverFails_unlimited
  -- the joined rows are known, so that the condition can be evaluated on each
  have decided : ∀ c ∈ cs, ∃ b, Condition.admits (some condition) c.row = .ok b := by
    let u : Schema := ⟨[⟨"s#a", .int⟩, ⟨"t#a", .text⟩], by decide, by decide⟩
    have pairs : Query.sourceRows tables
        = .ok [⟨u, [.int 2, .text "1"], rfl⟩, ⟨u, [.int 2, .text "2"], rfl⟩] := by
      decide +kernel
    obtain ⟨cs', product', rows⟩ :=
      Query.sourceRows_isCrossProduct (reachable.sound_of_found there).2 source
    obtain rfl := product.unique product'
    rw [pairs] at rows
    intro c hc
    have member := List.mem_map_of_mem (f := Combination.row) hc
    rw [← Except.ok.inj rows, List.mem_pair] at member
    rcases member with first | second
    · exact ⟨false, by rw [first]; decide +kernel⟩
    · exact ⟨true, by rw [second]; decide +kernel⟩
  obtain ⟨lines, shown, -, written⟩ := printed decided
  exact ⟨schema, cs, lines, product, shown, written⟩

end Engine

end RelEngine
