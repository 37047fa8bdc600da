import Mathlib.Data.Nat.Find
import RelEngine.Proofs.TableLayout
import RelEngine.Proofs.Transfers

/-!
# Distinct rows

A query for distinct rows drops every row that agrees with an earlier one on the projected columns
(`Query.Agree`), and keeps the others in their order. Which rows these are is said here by their
places: a row is kept iff no row at an earlier place agrees with it (`Query.firsts`).

The loop knows nothing of places. It carries the keys that it has seen, and puts the key of each kept
row in front of them. What carries the induction is that these are the keys of *all* rows so far, the
dropped ones included, whose keys had been seen before (`firstRows_eq_ok`).

* `Query.agree_iff` — rows agree exactly when their keys are equal;
* `Query.execute_distinct` — the rows of a query that is asked for distinct rows, against the rows of
  the same query without.
-/

namespace RelEngine

/-! ### The loop -/

/-- **The loop over distinct rows** keeps, of rows that all have keys, those whose key no row before
them has, be it one of the list or one that has been passed before. -/
theorem firstRows_eq_ok {key : Row → Except Error (List Value)} {k : Row → List Value}
    {rows : List Row} (keys : ∀ row ∈ rows, key row = .ok (k row)) :
    ∀ {before : List Row} {seen : List (List Value)},
      (∀ values, values ∈ seen ↔ ∃ old ∈ before, k old = values) →
        firstRows key seen rows = .ok (((rows.zipIdx before.length).filter fun p : Row × Nat =>
          decide (∀ old ∈ (before ++ rows).take p.2, k old ≠ k p.1)).map Prod.fst) := by
  induction rows with
  | nil => exact fun _ => rfl
  | cons row rest ih =>
    intro before seen sees
    rw [List.forall_mem_cons] at keys
    -- behind this row, it is one of those that have been passed
    have rest_eq : ∀ {seen' : List (List Value)},
        (∀ values, values ∈ seen' ↔ ∃ old ∈ before ++ [row], k old = values) →
          firstRows key seen' rest = .ok
            (((rest.zipIdx (before.length + 1)).filter fun p : Row × Nat =>
              decide (∀ old ∈ (before ++ row :: rest).take p.2, k old ≠ k p.1)).map Prod.fst) := by
      intro seen' sees'
      have := ih keys.2 sees'
      rwa [List.length_append, List.length_singleton, List.append_assoc, List.singleton_append]
        at this
    have first : (∀ old ∈ (before ++ row :: rest).take before.length, k old ≠ k row) ↔
        k row ∉ seen := by
      rw [List.take_left, sees]
      simp
    rw [firstRows, keys.1, ok_bind, List.zipIdx_cons]
    by_cases known : k row ∈ seen
    · -- the row is dropped, and its key was seen already
      have dropped : ¬ ∀ old ∈ (before ++ row :: rest).take before.length, k old ≠ k row :=
        fun new => first.1 new known
      have sees' : ∀ values, values ∈ seen ↔ ∃ old ∈ before ++ [row], k old = values := by
        intro values
        rw [sees]
        constructor
        · rintro ⟨old, member, same⟩
          exact ⟨old, List.mem_append_left _ member, same⟩
        · rintro ⟨old, member, rfl⟩
          rcases List.mem_append.1 member with member | member
          · exact ⟨old, member, rfl⟩
          · rw [List.mem_singleton.1 member]
            exact (sees _).1 known
      rw [if_pos known, rest_eq sees', List.filter_cons_of_neg (by simpa using dropped)]
    · have kept : ∀ old ∈ (before ++ row :: rest).take before.length, k old ≠ k row :=
        first.2 known
      have sees' : ∀ values, values ∈ k row :: seen ↔ ∃ old ∈ before ++ [row], k old = values := by
        intro values
        rw [List.mem_cons, sees]
        constructor
        · rintro (rfl | ⟨old, member, same⟩)
          · exact ⟨row, by simp, rfl⟩
          · exact ⟨old, List.mem_append_left _ member, same⟩
        · rintro ⟨old, member, rfl⟩
          rcases List.mem_append.1 member with member | member
          · exact .inr ⟨old, member, rfl⟩
          · rw [List.mem_singleton.1 member]
            exact .inl rfl
      rw [if_neg known, rest_eq sees', List.filter_cons_of_pos (by simpa using kept)]
      rfl

namespace Query

/-! ### Rows that agree -/

/-- **Agreement of rows** on what a query projects: on all values for all columns, else on what each
of the projected columns fetches. -/
def Agree (q : Query) (row row' : Row) : Prop :=
  if Projection.isWildcard q.projection.headers then row.values = row'.values
  else ∀ column ∈ q.projection.keys, row.get column = row'.get column

instance (q : Query) (row row' : Row) : Decidable (q.Agree row row') := by
  unfold Agree
  infer_instance

variable {q : Query} {row row' row'' : Row}

@[simp] theorem agree_self (q : Query) (row : Row) : q.Agree row row := by
  unfold Agree
  split
  · rfl
  · exact fun _ _ => rfl

/-- Agreement goes on from one row to the next. -/
theorem Agree.trans (h : q.Agree row row') (h' : q.Agree row' row'') : q.Agree row row'' := by
  unfold Agree at h h' ⊢
  split at h
  · rw [if_pos ‹_›] at h' ⊢
    exact h.trans h'
  · rw [if_neg ‹_›] at h' ⊢
    exact fun column member => (h column member).trans (h' column member)

/-- Rows agree exactly when their keys are equal. -/
theorem agree_iff {values values' : List Value} (key : q.key row = .ok values)
    (key' : q.key row' = .ok values') : q.Agree row row' ↔ values = values' := by
  unfold Query.key at key key'
  unfold Agree
  split at key
  · rw [if_pos ‹_›] at key' ⊢
    rw [Except.ok.inj key, Except.ok.inj key']
  · rw [if_neg ‹_›] at key' ⊢
    constructor
    · intro same
      rw [mapM_congr same, key'] at key
      exact (Except.ok.inj key).symm
    · rintro rfl column member
      -- the two lists of values are the same, and each stands beside the columns
      obtain ⟨i, there⟩ := List.mem_iff_getElem?.1 member
      obtain ⟨v, value, fetched⟩ := exists_getElem?_of_forall₂ (mapM_eq_ok_iff.1 key) there
      obtain ⟨v', value', fetched'⟩ := exists_getElem?_of_forall₂ (mapM_eq_ok_iff.1 key') there
      rw [value] at value'
      rw [fetched, fetched', Option.some.inj value']

/-- A row has a key when the query projects all columns, or columns that resolve. -/
theorem exists_key (resolved : Projection.isWildcard q.projection.headers = true ∨
    ∀ column ∈ q.projection.keys, ∃ place, row.schema.position column = .ok place) :
    ∃ values, q.key row = .ok values := by
  unfold Query.key
  split
  · exact ⟨row.values, rfl⟩
  · next listed =>
    have each : ∀ column ∈ q.projection.keys, ∃ v, row.get column = .ok v ∧ True := by
      intro column member
      obtain ⟨place, position⟩ := (resolved.resolve_left listed) column member
      exact ⟨row.value place, Row.get_of_place position (List.getElem?_eq_getElem _), trivial⟩
    obtain ⟨values, fetched, -⟩ := exists_mapM_forall₂ each
    exact ⟨values, fetched⟩

/-! ### First occurrences -/

/-- **First occurrences**: the rows that agree with none at an earlier place, in order. -/
def firsts (q : Query) (rows : List Row) : List Row :=
  (rows.zipIdx.filter fun p : Row × Nat =>
    decide (∀ old ∈ rows.take p.2, ¬ q.Agree old p.1)).map Prod.fst

variable {rows : List Row}

/-- A first occurrence is a row that agrees with none before it. -/
theorem mem_firsts_iff : row ∈ q.firsts rows ↔
    ∃ n : Nat, rows[n]? = some row ∧ ∀ old ∈ rows.take n, ¬ q.Agree old row := by
  unfold firsts
  rw [List.mem_map]
  constructor
  · rintro ⟨⟨row, n⟩, member, rfl⟩
    rw [List.mem_filter, List.mem_zipIdx_iff_getElem?, decide_eq_true_iff] at member
    exact ⟨n, member⟩
  · rintro ⟨n, there, new⟩
    -- the row is kept with its place, and the place is forgotten afterwards
    refine ⟨(row, n), ?_, rfl⟩
    rw [List.mem_filter, List.mem_zipIdx_iff_getElem?, decide_eq_true_iff]
    exact ⟨there, new⟩

/-- No two of them agree. -/
theorem firsts_pairwise : (q.firsts rows).Pairwise fun row row' => ¬ q.Agree row row' := by
  have rising : rows.zipIdx.Pairwise fun a b => a.2 < b.2 := by
    rw [← List.pairwise_map, List.zipIdx_map_snd]
    exact List.pairwise_lt_range'
  unfold firsts
  rw [List.pairwise_map]
  refine (rising.filter _).imp_of_mem fun {a b} ha hb lt => ?_
  rw [List.mem_filter, List.mem_zipIdx_iff_getElem?, decide_eq_true_iff] at ha hb
  -- the one stands before the other, which agrees with none before it
  refine hb.2 a.1 (List.mem_iff_getElem?.2 ⟨a.2, ?_⟩)
  rw [List.getElem?_take_of_lt lt]
  exact ha.1

/-- Every row agrees with a first occurrence. -/
theorem exists_first_agree (member : row ∈ rows) : ∃ first ∈ q.firsts rows, q.Agree first row := by
  have some : ∃ n : Nat, ∃ old, rows[n]? = some old ∧ q.Agree old row := by
    obtain ⟨n, there⟩ := List.mem_iff_getElem?.1 member
    exact ⟨n, row, there, q.agree_self row⟩
  classical
  obtain ⟨first, there, agree⟩ := Nat.find_spec some
  refine ⟨first, mem_firsts_iff.2 ⟨_, there, fun old before agree' => ?_⟩, agree⟩
  -- an earlier one that agrees with it would agree with the row as well
  obtain ⟨n, there'⟩ := List.mem_iff_getElem?.1 before
  rw [List.getElem?_take] at there'
  split at there'
  · next earlier => exact Nat.find_min some earlier ⟨old, there', agree'.trans agree⟩
  · cases there'

/-- The loop gives the first occurrences, if all rows have keys. -/
theorem firstRows_key (resolved : ∀ row ∈ rows, ∃ values, q.key row = .ok values) :
    firstRows q.key [] rows = .ok (q.firsts rows) := by
  have keys : ∀ row ∈ rows, q.key row = .ok ((q.key row).toOption.getD []) := by
    intro row member
    obtain ⟨values, key⟩ := resolved row member
    rw [key]
    rfl
  have nothing : ∀ values : List Value, values ∈ ([] : List (List Value)) ↔
      ∃ old ∈ ([] : List Row), (q.key old).toOption.getD [] = values := by simp
  rw [firstRows_eq_ok keys nothing, firsts, List.length_nil, List.nil_append]
  congr 2
  refine List.filter_congr fun p member => ?_
  have here := List.mem_zipIdx_iff_getElem?.1 member
  -- for rows of the list, to have the same key is to agree
  rw [decide_eq_decide]
  refine forall₂_congr fun old before => not_congr ?_
  exact (agree_iff (keys old (List.mem_of_mem_take before)) (keys p.1 (List.mem_of_getElem? here))).symm

/-! ### A query and the same query for distinct rows -/

/-- The query that asks for distinct rows, and is otherwise the same. -/
def distinctly (q : Query) : Query := { q with distinct := true }

/-- With `DISTINCT` a query drops repeats from the rows that it gives without. -/
theorem rows_distinctly {tables : List Relation} (plain : q.distinct = false)
    (given : q.rows tables = .ok rows) : q.distinctly.rows tables = firstRows q.key [] rows := by
  obtain ⟨source, start, h⟩ := bind_eq_ok_iff.1 given
  obtain ⟨kept, keep, h⟩ := bind_eq_ok_iff.1 h
  rw [plain] at h
  obtain rfl : kept = rows := Except.ok.inj h
  -- the two queries differ in what comes behind the condition
  change (sourceRows tables >>= fun source =>
    keepRows (Condition.admits q.selection) source >>= fun kept => firstRows q.key [] kept) = _
  rw [start, ok_bind, keep, ok_bind]

/-- **Distinct rows.** Where a query gives rows, and projects all columns or columns that resolve in
these rows, the same query for distinct rows gives the first occurrences among them, after the same
transfers. No two of them agree, and every row of the first query agrees with one of them. -/
theorem execute_distinct {c : Catalog} {m : Memory} (plain : q.distinct = false)
    (given : (q.execute c m).rows = .ok rows)
    (resolved : Projection.isWildcard q.projection.headers = true ∨ ∀ row ∈ rows,
      ∀ column ∈ q.projection.keys, ∃ place, row.schema.position column = .ok place) :
    (q.distinctly.execute c m).rows = .ok (q.firsts rows) ∧
      (q.distinctly.execute c m).events.filterMap Event.blocks
        = (q.execute c m).events.filterMap Event.blocks ∧
      (q.firsts rows).Pairwise (fun row row' => ¬ q.Agree row row') ∧
      ∀ row ∈ rows, ∃ first ∈ q.firsts rows, q.Agree first row := by
  obtain ⟨tables, there, rows'⟩ := exists_relations given
  have there' : q.distinctly.relations c = .ok tables := there
  -- every key is there, so the loop never fails
  have firsts : q.distinctly.rows tables = .ok (q.firsts rows) := by
    rw [rows_distinctly plain rows']
    refine firstRows_key fun row member => exists_key ?_
    exact resolved.imp_right fun each => each row member
  -- the reads are charged for the tables, whichever rows come out
  refine ⟨by rw [execute_rows_eq m there', firsts], ?_, firsts_pairwise, fun _ => exists_first_agree⟩
  rw [blocks_execute m there', blocks_execute m there]

/-- Three rows, two of them with the same course. The course is projected twice, once behind the name
of its table. The row that comes first is kept, and what it has in its other column does not count. -/
theorem execute_distinct_repeated :
    let e := (Engine.ofSettings .standard).calls
      ([.node "CREATE" [.node "TABLE" [.leaf "e"],
          .node "ATTRIBUTES" [.node "ATTRIBUTE" [.leaf "sid", .leaf "INT"],
            .node "ATTRIBUTE" [.leaf "course", .leaf "STR20"]]],
        .node "INSERT" [.node "TABLE" [.leaf "e"], .node "VALUES" [.leaf "1", .leaf "db"]],
        .node "INSERT" [.node "TABLE" [.leaf "e"], .node "VALUES" [.leaf "2", .leaf "db"]],
        .node "INSERT" [.node "TABLE" [.leaf "e"], .node "VALUES" [.leaf "3", .leaf "os"]]].map
        fun tree => .execute 0 tree Transcript.unlimited)
    let q : Query := ⟨⟨["e.course", "course"], ["course", "course"]⟩, false, ["e"], none⟩
    let s : Schema := ⟨[⟨"sid", .int⟩, ⟨"course", .text⟩], by decide, by decide⟩
    let first : Row := ⟨s, [.int 1, .text "db"], rfl⟩
    let second : Row := ⟨s, [.int 2, .text "db"], rfl⟩
    let third : Row := ⟨s, [.int 3, .text "os"], rfl⟩
    (q.execute e.catalog e.memory).rows = .ok [first, second, third] ∧
      (q.distinctly.execute e.catalog e.memory).rows = .ok [first, third] := by
  intro e q s first second third
  have given : (q.execute e.catalog e.memory).rows = .ok [first, second, third] := by
    decide +kernel
  have resolved : ∀ row ∈ [first, second, third], ∀ column ∈ q.projection.keys,
      ∃ place, row.schema.position column = .ok place := by
    decide +kernel
  refine ⟨given, (execute_distinct rfl given (.inr resolved)).1.trans ?_⟩
  decide +kernel

end Query

end RelEngine
