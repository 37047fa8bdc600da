import Mathlib.Data.List.Lex
import RelEngine.Proofs.StoreInvariant

/-!
# Queries over several tables

A query over several tables starts from their cross product. What that is, is said here by positions
and without loops: a **combination** takes one stored row of each table by its position, and joins
the values of these rows under one schema. The cross product is the list of *all* combinations, each
once, in lexicographic order of the positions (`IsCrossProduct`). This fixes the list
(`IsCrossProduct.unique`).

The nested loops reach it in rounds. What carries the induction over the rounds is that the rows so
far join the parts so far under the leading fields of the final schema, exactly as many as the
tables so far have. So every round has a schema to re-home its rows under, every join has the right
number of values, and the last round arrives at the whole schema (`nestedLoops_joins`).

* `Query.sourceRows_isCrossProduct` — the rows that a query starts from, for one table or several;
* `Query.execute_crossProduct` — the rows of a query over several tables, or its error.
-/

namespace RelEngine

/-! ### Combinations -/

/-- The rows stored at some positions, one position for each table. -/
inductive StoredAt : List Relation → List Nat → List Row → Prop
  | nil : StoredAt [] [] []
  | cons {r : Relation} {tables : List Relation} {i : Nat} {positions : List Nat} {row : Row}
      {parts : List Row} (here : r.rows[i]? = some row) (rest : StoredAt tables positions parts) :
      StoredAt (r :: tables) (i :: positions) (row :: parts)

/-- The row has the schema, and the values of the parts one after the other. -/
def Row.Joins (schema : Schema) (parts : List Row) (row : Row) : Prop :=
  row.schema = schema ∧ row.values = parts.flatMap Row.values

/-- **A combination of stored rows**: their positions, the rows, and the row that joins them. -/
structure Combination where
  positions : List Nat
  parts : List Row
  row : Row

/-- A combination takes its parts from the tables and joins them under the schema. -/
structure Combination.Of (tables : List Relation) (schema : Schema) (c : Combination) : Prop where
  stored : StoredAt tables c.positions c.parts
  joined : c.row.Joins schema c.parts

/-- **The cross product**: all combinations, each once, the first table varying slowest. -/
structure IsCrossProduct (tables : List Relation) (schema : Schema) (cs : List Combination) :
    Prop where
  sorted : (cs.map Combination.positions).Pairwise (List.Lex (· < ·))
  mem_iff : ∀ c, c ∈ cs ↔ c.Of tables schema

/-- Tables and schema leave no choice: there is one cross product. -/
theorem IsCrossProduct.unique {tables : List Relation} {schema : Schema}
    {cs cs' : List Combination} (h : IsCrossProduct tables schema cs)
    (h' : IsCrossProduct tables schema cs') : cs = cs' := by
  have sorted := List.pairwise_map.1 h.sorted
  have sorted' := List.pairwise_map.1 h'.sorted
  have asymm : ∀ p p' : List Nat, List.Lex (· < ·) p p' → ¬ List.Lex (· < ·) p' p :=
    Std.Asymm.asymm
  have differ : ∀ {a b : Combination}, List.Lex (· < ·) a.positions b.positions → a ≠ b := by
    rintro a b lt rfl
    exact asymm _ _ lt lt
  -- both are without repetition and have the same members
  have perm : cs.Perm cs' := by
    refine (List.perm_ext_iff_of_nodup (sorted.imp differ) (sorted'.imp differ)).2 fun c => ?_
    rw [h.mem_iff, h'.mem_iff]
  exact perm.eq_of_pairwise (fun a b _ _ lt gt => absurd gt (asymm _ _ lt)) sorted sorted'

/-! ### Enumeration -/

/-- All choices of one row from each table, with their positions. -/
def picks : List Relation → List (List Nat × List Row)
  | [] => [([], [])]
  | r :: tables => r.rows.zipIdx.flatMap fun here =>
      (picks tables).map fun rest => (here.2 :: rest.1, here.1 :: rest.2)

/-- All choices of one row from each table. -/
def tuples (tables : List Relation) : List (List Row) := (picks tables).map Prod.snd

theorem tuples_nil : tuples [] = [[]] := rfl

/-- The choices from one more table: each of its rows before all choices from the others. -/
theorem tuples_cons (r : Relation) (tables : List Relation) :
    tuples (r :: tables) = r.rows.flatMap fun row => (tuples tables).map (row :: ·) := by
  have rows : r.rows = r.rows.zipIdx.map Prod.fst := (List.zipIdx_map_fst 0 r.rows).symm
  unfold tuples
  conv_rhs => rw [rows]
  rw [picks, List.map_flatMap, List.flatMap_map]
  simp only [List.map_map, Function.comp_def]

/-- **A choice** is a row of each table, with the positions at which they stand. -/
theorem mem_picks_iff {tables : List Relation} :
    ∀ {positions : List Nat} {parts : List Row},
      (positions, parts) ∈ picks tables ↔ StoredAt tables positions parts := by
  -- on the tables, with the choice taken apart along them
  induction tables with
  | nil =>
    intro positions parts
    rw [picks, List.mem_singleton, Prod.mk.injEq]
    constructor
    · rintro ⟨rfl, rfl⟩
      exact .nil
    · intro h
      cases h
      exact ⟨rfl, rfl⟩
  | cons r tables ih =>
    intro positions parts
    rw [picks, List.mem_flatMap]
    constructor
    · rintro ⟨⟨row, i⟩, here, member⟩
      obtain ⟨⟨rest, others⟩, chosen, same⟩ := List.mem_map.1 member
      obtain ⟨rfl, rfl⟩ := Prod.mk.inj same
      exact .cons (List.mem_zipIdx_iff_getElem?.1 here) (ih.1 chosen)
    · intro h
      cases h with
      | @cons _ _ i rest row others here stored =>
        exact ⟨(row, i), List.mem_zipIdx_iff_getElem?.2 here,
          List.mem_map.2 ⟨(rest, others), ih.2 stored, rfl⟩⟩

/-- The positions come in lexicographic order: within one row of the first table by induction, and
from row to row because the first position goes up. -/
theorem picks_sorted (tables : List Relation) :
    ((picks tables).map Prod.fst).Pairwise (List.Lex (· < ·)) := by
  induction tables with
  | nil => exact List.pairwise_singleton _ _
  | cons r tables ih =>
    rw [List.pairwise_map] at ih
    rw [picks, List.pairwise_map, List.pairwise_flatMap]
    constructor
    · rintro ⟨row, i⟩ -
      rw [List.pairwise_map]
      exact ih.imp fun h => List.Lex.cons h
    · -- rows of the first table stand in the order of their positions
      have rising : r.rows.zipIdx.Pairwise fun a b => a.2 < b.2 := by
        rw [← List.pairwise_map, List.zipIdx_map_snd]
        exact List.pairwise_lt_range'
      refine rising.imp fun {a b} lt => ?_
      rintro x hx y hy
      obtain ⟨p, -, rfl⟩ := List.mem_map.1 hx
      obtain ⟨p', -, rfl⟩ := List.mem_map.1 hy
      exact List.Lex.rel lt

/-! ### Leading fields -/

namespace Schema

/-- The schema of the first fields exists, as long as there are that many and at least one. -/
theorem exists_leading {s : Schema} {width : Nat} (pos : 0 < width) (le : width ≤ s.size) :
    ∃ reached, s.leading width = .ok reached ∧ reached.size = width := by
  unfold leading
  by_cases whole : width = s.size
  · -- the full width is the schema itself, not a copy of it
    rw [if_pos whole]
    exact ⟨s, rfl, whole.symm⟩
  · rw [if_neg whole]
    have length : (s.fields.take width).length = width := by
      rw [List.length_take]
      exact min_eq_left le
    have taken : s.fields.take width ≠ [] := List.ne_nil_of_length_pos (by omega)
    -- leading fields differ in their names as all fields do
    have names : ((s.fields.take width).map Field.name).Nodup := by
      rw [List.map_take]
      exact s.names_nodup.sublist (List.take_sublist _ _)
    exact ⟨⟨s.fields.take width, taken, names⟩, ofFields_eq_ok_iff.2 rfl, length⟩

theorem leading_size (s : Schema) : s.leading s.size = .ok s := if_pos rfl

/-- The schema of a cross product has the fields of all sources. -/
theorem size_qualified {sources : List (String × Schema)} {schema : Schema}
    (h : qualified sources = .ok schema) :
    schema.size = (sources.flatMap fun p => p.2.fields).length := by
  unfold size
  rw [ofFields_eq_ok_iff.1 h]
  -- the names are of no importance from here on
  clear h
  induction sources with
  | nil => rfl
  | cons p sources ih =>
    rw [List.flatMap_cons, List.flatMap_cons, List.length_append, List.length_append, ih]
    congr 1
    exact List.length_map ..

end Schema

/-! ### The rounds of the nested loops -/

namespace Row

variable {schema : Schema} {parts : List Row} {row : Row}

/-- Values that are as many as the fields make a joined row. -/
theorem exists_joins (h : (parts.flatMap Row.values).length = schema.size) :
    ∃ row, Row.ofValues schema (parts.flatMap Row.values) = .ok row ∧ row.Joins schema parts :=
  ⟨⟨schema, _, h⟩, ofValues_eq_ok_iff.2 ⟨rfl, rfl⟩, rfl, rfl⟩

theorem Joins.length (h : row.Joins schema parts) :
    (parts.flatMap Row.values).length = schema.size := by
  rw [← h.2, row.arity, h.1]

/-- There is only one joined row of some parts under a schema. -/
theorem Joins.unique {row' : Row} (h : row.Joins schema parts) (h' : row'.Joins schema parts) :
    row = row' := by
  obtain ⟨s, values, arity⟩ := row
  obtain ⟨s', values', arity'⟩ := row'
  obtain ⟨rfl, rfl⟩ : s = schema ∧ values = parts.flatMap Row.values := h
  obtain ⟨rfl, rfl⟩ : s' = s ∧ values' = parts.flatMap Row.values := h'
  rfl

/-- One more part is joined under a schema with room for it. -/
theorem Joins.join {reached : Schema} {right : Row} (h : row.Joins schema parts)
    (room : reached.size = schema.size + right.values.length) :
    ∃ row', row.join right reached = .ok row' ∧ row'.Joins reached (parts ++ [right]) := by
  have values : row.values ++ right.values = (parts ++ [right]).flatMap Row.values := by
    rw [h.2, List.flatMap_append, List.flatMap_singleton]
  unfold Row.join
  rw [values]
  apply exists_joins
  rw [List.flatMap_append, List.length_append, h.length, List.flatMap_singleton, room]

end Row

/-- Every row of a table has as many values as the table has fields. -/
def Relation.Fits (r : Relation) : Prop := ∀ row ∈ r.rows, row.values.length = r.schema.size

/-- **One round**: each row so far with every row of the next table, in this order. -/
theorem exists_round {schema reached : Schema} {r : Relation} (fits : r.Fits)
    (room : reached.size = schema.size + r.schema.size) {before : List (List Row)}
    {rows : List Row} (h : List.Forall₂ (fun parts row => row.Joins schema parts) before rows) :
    ∃ next, (rows.mapM fun left => r.rows.mapM fun right => left.join right reached) = .ok next ∧
      List.Forall₂ (fun parts row => row.Joins reached parts)
        (before.flatMap fun parts => r.rows.map fun right => parts ++ [right]) next.flatten := by
  -- on the rows so far; each is joined with every row of the table
  induction h with
  | nil => exact ⟨[], rfl, .nil⟩
  | @cons parts left before rows joins _ ih =>
    obtain ⟨next, later, joined⟩ := ih
    -- there is room for one more part in the schema that is reached
    have inner : ∀ right ∈ r.rows, ∃ row, left.join right reached = .ok row ∧
        row.Joins reached (parts ++ [right]) := fun right member =>
      joins.join (by rw [room, fits right member])
    obtain ⟨first, now, joins⟩ := exists_mapM_forall₂ inner
    refine ⟨first :: next, by rw [List.mapM_cons, now, ok_bind, later]; rfl, ?_⟩
    rw [List.flatMap_cons, List.flatten_cons]
    exact List.rel_append (List.forall₂_map_left_iff.2 joins) joined

/-- **All rounds**: the rows so far, each with every choice from the tables that are left. -/
theorem nestedLoops_joins {schema : Schema} {tables : List Relation}
    (fits : ∀ r ∈ tables, r.Fits) :
    ∀ {width : Nat} {reached : Schema} {before : List (List Row)} {rows : List Row},
      reached.size = width → 0 < width →
      schema.leading width = .ok reached →
      width + (tables.flatMap fun r => r.schema.fields).length = schema.size →
      List.Forall₂ (fun parts row => row.Joins reached parts) before rows →
      ∃ joined, nestedLoops schema width rows tables = .ok joined ∧
        List.Forall₂ (fun parts row => row.Joins schema parts)
          (before.flatMap fun parts => (tuples tables).map fun rest => parts ++ rest) joined := by
  induction tables with
  | nil =>
    intro width reached before rows _ _ leading total h
    -- no round is left, so all fields have been reached
    have arrived : reached = schema := by
      rw [List.flatMap_nil, List.length_nil, Nat.add_zero] at total
      rw [total, schema.leading_size] at leading
      exact (Except.ok.inj leading).symm
    subst arrived
    refine ⟨rows, rfl, ?_⟩
    rw [tuples_nil]
    simpa using h
  | cons r tables ih =>
    intro width reached before rows size pos leading total h
    -- the width of this table is reached now, that of the others is still to come
    rw [List.flatMap_cons, List.length_append] at total
    change width + (r.schema.size + _) = schema.size at total
    have pos' : 0 < width + r.schema.size := by omega
    have within : width + r.schema.size ≤ schema.size := by omega
    obtain ⟨further, leading', size'⟩ := schema.exists_leading pos' within
    obtain ⟨next, round, joins⟩ := exists_round (fits r (by simp)) (by rw [size', size]) h
    obtain ⟨joined, rest, joins⟩ := ih (fun r' h' => fits r' (by simp [h'])) size' (by omega)
      leading' (by omega) joins
    refine ⟨joined, ?_, ?_⟩
    · rw [nestedLoops, leading', ok_bind, round, ok_bind]
      exact rest
    · -- every choice so far, then this table's row, then the rest: the nesting is the same
      rw [List.flatMap_assoc] at joins
      rw [tuples_cons]
      simpa [List.flatMap_map, List.map_flatMap, Function.comp_def] using joins

/-! ### Keeping rows -/

section KeepRows

variable {condition : Row → Except Error Bool}

/-- A condition that is decided on all rows keeps those of which it is true. -/
theorem keepRows_of_decided {rows : List Row} (h : ∀ row ∈ rows, ∃ b, condition row = .ok b) :
    keepRows condition rows = .ok (rows.filter fun row => affirmed (condition row)) := by
  induction rows with
  | nil => rfl
  | cons row rows ih =>
    have rest := ih fun r hr => h r (List.mem_cons_of_mem _ hr)
    obtain ⟨b, decided⟩ := h row (by simp)
    -- a row that is kept and one that is not both leave the rest to the induction
    rw [keepRows, decided, ok_bind, rest, List.filter_cons, decided]
    cases b <;> rfl

/-- Filtering ends with the error of the first row on which the condition fails. -/
theorem keepRows_of_first_error {before after : List Row} {row : Row} {err : Error}
    (h : ∀ row ∈ before, ∃ b, condition row = .ok b) (fails : condition row = .error err) :
    keepRows condition (before ++ row :: after) = .error err := by
  -- on the rows before it, which are decided and passed
  induction before with
  | nil =>
    rw [List.nil_append, keepRows, fails]
    rfl
  | cons r before ih =>
    have rest := ih fun r hr => h r (List.mem_cons_of_mem _ hr)
    obtain ⟨b, decided⟩ := h r (by simp)
    rw [List.cons_append, keepRows, decided, ok_bind, rest]
    cases b <;> rfl

/-- Keeping rows fails if the condition fails on one of them, and otherwise keeps those of which it
is true. -/
theorem keepRows_cases (condition : Row → Except Error Bool) (rows : List Row) :
    ((∃ row ∈ rows, ∃ err, condition row = .error err) ∧
        ∃ err, keepRows condition rows = .error err) ∨
      ((∀ row ∈ rows, ∃ b, condition row = .ok b) ∧
        keepRows condition rows = .ok (rows.filter fun row => affirmed (condition row))) := by
  -- the scan of the rows says whether one of them fails, as the loop does
  cases scan : rows.mapM condition with
  | error err =>
    obtain ⟨before, row, after, rfl, decided, fails⟩ := mapM_eq_error_iff.1 scan
    exact .inl ⟨⟨row, by simp, err, fails⟩, err, keepRows_of_first_error decided fails⟩
  | ok marks =>
    have decided : ∀ row ∈ rows, ∃ b, condition row = .ok b := fun row member =>
      ⟨_, eq_ok_affirmed_of_mapM scan member⟩
    exact .inr ⟨decided, keepRows_of_decided decided⟩

end KeepRows

/-! ### The rows a query starts from -/

/-- Rows that join the choices, in order, are the rows of the cross product. -/
theorem exists_crossProduct {tables : List Relation} {schema : Schema} {rows : List Row}
    (h : List.Forall₂ (fun parts row => row.Joins schema parts) (tuples tables) rows) :
    ∃ cs, IsCrossProduct tables schema cs ∧ rows = cs.map Combination.row := by
  -- choices and rows go side by side, and make a combination each
  have aligned : ∀ {ps : List (List Nat × List Row)} {rows : List Row},
      List.Forall₂ (fun p row => row.Joins schema p.2) ps rows →
      ∃ cs : List Combination, cs.map (fun c => (c.positions, c.parts)) = ps ∧
        rows = cs.map Combination.row ∧ ∀ c ∈ cs, c.row.Joins schema c.parts := by
    intro ps rows h
    induction h with
    | nil => exact ⟨[], rfl, rfl, by simp⟩
    | @cons p row ps rows joins _ ih =>
      obtain ⟨cs, rfl, rfl, joined⟩ := ih
      refine ⟨⟨p.1, p.2, row⟩ :: cs, rfl, rfl, ?_⟩
      intro c hc
      rcases List.mem_cons.1 hc with rfl | hc
      · exact joins
      · exact joined c hc
  obtain ⟨cs, same, rfl, joined⟩ := aligned (List.forall₂_map_left_iff.1 h)
  refine ⟨cs, ⟨?_, fun c => ⟨fun hc => ?_, fun hc => ?_⟩⟩, rfl⟩
  · have positions : cs.map Combination.positions = (picks tables).map Prod.fst := by
      rw [← same, List.map_map]
      rfl
    rw [positions]
    exact picks_sorted tables
  · have chosen : (c.positions, c.parts) ∈ picks tables :=
      same ▸ List.mem_map_of_mem (f := fun c : Combination => (c.positions, c.parts)) hc
    exact ⟨mem_picks_iff.1 chosen, joined c hc⟩
  · -- the choice is in the list, and it leaves no freedom for the row
    have chosen := mem_picks_iff.2 hc.stored
    rw [← same] at chosen
    obtain ⟨⟨p, parts, row⟩, hc', eq⟩ := List.mem_map.1 chosen
    obtain ⟨rfl, rfl⟩ := Prod.mk.inj eq
    have unique : row = c.row := (joined _ hc').unique hc.joined
    rw [unique] at hc'
    exact hc'

theorem Relation.Sound.fits {r : Relation} (h : r.Sound) : r.Fits := h.row_arity

namespace Query

/-- The schema of the rows that a query starts from: plain names for a single table, qualified ones
for several. -/
def sourceSchema : List Relation → Except Error Schema
  | [only] => .ok only.schema
  | tables => Schema.qualified (tables.map fun r => (r.name, r.schema))

/-- The rows of the first table get the schema of the leading fields, in which names are qualified.
-/
theorem exists_first {outer : Relation} (fits : outer.Fits) {head : Schema}
    (size : head.size = outer.schema.size) :
    ∃ first, (outer.rows.mapM fun row => row.withSchema head) = .ok first ∧
      List.Forall₂ (fun parts row => row.Joins head parts)
        (outer.rows.map fun row => [row]) first := by
  have each : ∀ row ∈ outer.rows, ∃ row', row.withSchema head = .ok row' ∧
      row'.Joins head [row] := by
    intro row member
    -- a row is the join of itself alone
    have values : row.values = [row].flatMap Row.values := (List.flatMap_singleton ..).symm
    unfold Row.withSchema
    rw [values]
    apply Row.exists_joins
    rw [← values, fits row member, size]
  obtain ⟨first, rehomed, joins⟩ := exists_mapM_forall₂ each
  exact ⟨first, rehomed, List.forall₂_map_left_iff.2 joins⟩

/-- **The rows a query starts from** join the choices from its tables, one after the other. No step
on the way to them fails. -/
theorem exists_sourceRows {tables : List Relation} (sound : ∀ r ∈ tables, r.Sound)
    {schema : Schema} (h : sourceSchema tables = .ok schema) :
    ∃ rows, sourceRows tables = .ok rows ∧
      List.Forall₂ (fun parts row => row.Joins schema parts) (tuples tables) rows := by
  match tables with
  | [] => cases h
  | [only] =>
    cases h
    -- each stored row is the join of itself alone
    refine ⟨only.rows, rfl, ?_⟩
    rw [tuples_cons, tuples_nil]
    simp only [List.map_cons, List.map_nil, ← List.map_eq_flatMap]
    rw [List.forall₂_map_left_iff, List.forall₂_same]
    intro row member
    exact ⟨(sound only (by simp)).row_schema row member, (List.flatMap_singleton ..).symm⟩
  | outer :: inner :: inners =>
    change Schema.qualified _ = .ok schema at h
    -- there is room for the first table and, behind it, for all the others
    have total := Schema.size_qualified h
    rw [List.flatMap_map, List.flatMap_cons, List.length_append] at total
    obtain ⟨head, leading, size⟩ :=
      schema.exists_leading outer.schema.size_pos (by rw [total]; exact Nat.le_add_right ..)
    obtain ⟨first, rehomed, joins⟩ := exists_first (sound outer (by simp)).fits size
    obtain ⟨joined, loops, joins⟩ :=
      nestedLoops_joins (fun r hr => (sound r (List.mem_cons_of_mem _ hr)).fits) size
        outer.schema.size_pos leading total.symm joins
    rw [List.flatMap_map] at joins
    refine ⟨joined, ?_, ?_⟩
    · rw [sourceRows, h, ok_bind, leading, ok_bind, rehomed, ok_bind]
      · exact loops
      · exact List.cons_ne_nil _ _
    · rw [tuples_cons]
      exact joins

/-- The rows a query starts from are those of the cross product. -/
theorem sourceRows_isCrossProduct {tables : List Relation} (sound : ∀ r ∈ tables, r.Sound)
    {schema : Schema} (h : sourceSchema tables = .ok schema) :
    ∃ cs, IsCrossProduct tables schema cs ∧
      sourceRows tables = .ok (cs.map Combination.row) := by
  obtain ⟨rows, source, joins⟩ := exists_sourceRows sound h
  obtain ⟨cs, product, rfl⟩ := exists_crossProduct joins
  exact ⟨cs, product, source⟩

/-- A query finds its tables iff each of them is in the catalog. -/
theorem relations_eq_ok_iff {q : Query} {c : Catalog} {tables : List Relation} :
    q.relations c = .ok tables ↔
      List.Forall₂ (fun name r => c.find? name = some r) q.tables tables := by
  simp only [relations, mapM_eq_ok_iff, Catalog.find_eq_ok_iff]

/-- Once its tables are found, a query ends as its rows do. -/
theorem execute_rows_eq {q : Query} {c : Catalog} {tables : List Relation} (m : Memory)
    (there : q.relations c = .ok tables) : (q.execute c m).rows = q.rows tables := by
  rw [execute, there]
  dsimp only
  cases q.rows tables <;> rfl

/-- Over tables that are there, a query without `DISTINCT` filters the rows that it starts from. -/
theorem execute_rows {q : Query} {c : Catalog} {tables : List Relation} {source : List Row}
    (m : Memory) (plain : q.distinct = false) (there : q.relations c = .ok tables)
    (h : sourceRows tables = .ok source) :
    (q.execute c m).rows = keepRows (Condition.admits q.selection) source := by
  rw [execute_rows_eq m there, Query.rows, h, ok_bind, plain]
  cases keepRows (Condition.admits q.selection) source <;> rfl

theorem execute_rows_of_decided {q : Query} {c : Catalog} {tables : List Relation}
    {cs : List Combination} (m : Memory) (plain : q.distinct = false)
    (there : q.relations c = .ok tables) (source : sourceRows tables = .ok (cs.map Combination.row))
    (decided : ∀ c ∈ cs, ∃ b, Condition.admits q.selection c.row = .ok b) :
    (q.execute c m).rows = .ok
      ((cs.filter fun c => affirmed (Condition.admits q.selection c.row)).map Combination.row) := by
  rw [execute_rows m plain there source, keepRows_of_decided (by simpa using decided),
    List.filter_map]
  rfl

/-- **Queries over several tables.** The rows start from the cross product, which is always reached.
Without `DISTINCT` the query fails with the error of the first combination on which the condition
fails, or it gives the rows of exactly the combinations of which the condition is true. -/
theorem execute_crossProduct {e : Engine} (reachable : e.Reachable) (m : Memory) {q : Query}
    (plain : q.distinct = false) (several : 2 ≤ q.tables.length) {tables : List Relation}
    (there : List.Forall₂ (fun name r => e.catalog.find? name = some r) q.tables tables)
    {schema : Schema}
    (qualifies : Schema.qualified (tables.map fun r => (r.name, r.schema)) = .ok schema) :
    ∃ cs, IsCrossProduct tables schema cs ∧
      sourceRows tables = .ok (cs.map Combination.row) ∧
      ((∃ before c after err, cs = before ++ c :: after ∧
          (∀ x ∈ before, ∃ b, Condition.admits q.selection x.row = .ok b) ∧
          Condition.admits q.selection c.row = .error err ∧
          (q.execute e.catalog m).rows = .error err) ∨
        ((∀ c ∈ cs, ∃ b, Condition.admits q.selection c.row = .ok b) ∧
          (q.execute e.catalog m).rows = .ok
            ((cs.filter fun c => affirmed (Condition.admits q.selection c.row)).map
              Combination.row))) := by
  obtain ⟨-, sound⟩ := reachable.sound_of_found there
  -- there are several sources, so their schema is the qualified one
  have schemaOf : sourceSchema tables = .ok schema := by
    rw [there.length_eq] at several
    match tables, several with
    | _ :: _ :: _, _ => exact qualifies
  obtain ⟨cs, product, source⟩ := sourceRows_isCrossProduct sound schemaOf
  refine ⟨cs, product, source, ?_⟩
  -- scanning the combinations either gets through or meets a first one that fails
  cases scan : cs.mapM fun c => Condition.admits q.selection c.row with
  | error err =>
    obtain ⟨before, c, after, rfl, decided, fails⟩ := mapM_eq_error_iff.1 scan
    refine .inl ⟨before, c, after, err, rfl, decided, fails, ?_⟩
    rw [execute_rows m plain (relations_eq_ok_iff.2 there) source, List.map_append, List.map_cons]
    refine keepRows_of_first_error ?_ fails
    simpa using decided
  | ok marks =>
    have decided : ∀ c ∈ cs, ∃ b, Condition.admits q.selection c.row = .ok b := by
      intro c hc
      obtain ⟨b, -, decided⟩ := exists_of_mem_right (mapM_eq_ok_iff.1 scan).flip hc
      exact ⟨b, decided⟩
    exact .inr ⟨decided,
      execute_rows_of_decided m plain (relations_eq_ok_iff.2 there) source decided⟩

/-- Two rows of one table with two of another. The condition keeps the last of the four. -/
theorem execute_crossProduct_last :
    let e := (Engine.ofSettings .standard).calls
      ([.node "CREATE" [.node "TABLE" [.leaf "s"],
          .node "ATTRIBUTES" [.node "ATTRIBUTE" [.leaf "a", .leaf "INT"]]],
        .node "CREATE" [.node "TABLE" [.leaf "t"],
          .node "ATTRIBUTES" [.node "ATTRIBUTE" [.leaf "b", .leaf "STR20"]]],
        .node "INSERT" [.node "TABLE" [.leaf "s"], .node "VALUES" [.leaf "1"]],
        .node "INSERT" [.node "TABLE" [.leaf "s"], .node "VALUES" [.leaf "2"]],
        .node "INSERT" [.node "TABLE" [.leaf "t"], .node "VALUES" [.leaf "3"]],
        .node "INSERT" [.node "TABLE" [.leaf "t"], .node "VALUES" [.leaf "2"]]].map
        fun tree => .execute 0 tree Transcript.unlimited)
    let q : Query :=
      ⟨⟨["s.a", "t.b"], ["s.a", "t.b"]⟩, false, ["s", "t"], some (.equal "s.a" "t.b")⟩
    let a : Schema := ⟨[⟨"a", .int⟩], by decide, by decide⟩
    let b : Schema := ⟨[⟨"b", .text⟩], by decide, by decide⟩
    let tables : List Relation := [⟨"s", a, [⟨a, [.int 1], rfl⟩, ⟨a, [.int 2], rfl⟩]⟩,
      ⟨"t", b, [⟨b, [.text "3"], rfl⟩, ⟨b, [.text "2"], rfl⟩]⟩]
    let schema : Schema := ⟨[⟨"s#a", .int⟩, ⟨"t#b", .text⟩], by decide, by decide⟩
    q.relations e.catalog = .ok tables ∧
      ∃ cs, IsCrossProduct tables schema cs ∧
        (cs.filter fun c => affirmed (Condition.admits q.selection c.row)).map Combination.row
          = [⟨schema, [.int 2, .text "2"], rfl⟩] := by
  intro e q a b tables schema
  have reachable : e.Reachable := Engine.reachable_calls _ _
  have there : q.relations e.catalog = .ok tables := by decide +kernel
  have qualifies : Schema.qualified (tables.map fun r => (r.name, r.schema)) = .ok schema := by
    decide +kernel
  have ended : (q.execute e.catalog e.memory).rows = .ok [⟨schema, [.int 2, .text "2"], rfl⟩] := by
    decide +kernel
  have plain : q.distinct = false := rfl
  have several : 2 ≤ q.tables.length := Nat.le_refl 2
  refine ⟨there, ?_⟩
  -- no combination fails, since the query has given its row
  obtain ⟨cs, product, -, failed | ⟨-, rows⟩⟩ := execute_crossProduct reachable e.memory plain
    several (relations_eq_ok_iff.1 there) qualifies
  · obtain ⟨-, -, -, err, -, -, -, rows⟩ := failed
    rw [ended] at rows
    cases rows
  · rw [ended] at rows
    exact ⟨cs, product, (Except.ok.inj rows).symm⟩

end Query

end RelEngine
