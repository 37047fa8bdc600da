import RelEngine.Proofs.PrintedQuery

/-!
# Lowered statements

What can be said of a statement because it has come from a tree. Lowering looks at the tree's keyword
first and then goes one of five ways, each to one kind of statement (`Statement.ofTree_cases`). So the
kind of a statement tells which way it came, and the clauses of the tree can be read off the way.

* `Query.LoweredFrom` — what lowering establishes for a query: keys go with headers, and with a single
  source the condition is freed of the table's prefix;
* `Statement.loweredFrom_of_select`, `Statement.selection_of_delete` — that it does.
-/

namespace RelEngine

/-! ### Five ways -/

namespace Statement

variable {tree : Tree} {s : Statement}

/-- Each reader gives a statement of its own kind. -/
theorem keyword_of_create (h : createOfTree tree = .ok s) : s.keyword = .create := by
  obtain ⟨table, -, h⟩ := bind_eq_ok_iff.1 h
  obtain ⟨clause, -, h⟩ := bind_eq_ok_iff.1 h
  obtain ⟨fields, -, h⟩ := bind_eq_ok_iff.1 h
  rw [← Except.ok.inj h]
  rfl

/-- An insertion is one with attributes and without. -/
theorem keyword_of_insert (h : insertOfTree tree = .ok s) : s.keyword = .insert := by
  have rest : ∀ table attributes, (do
      let literals ← (← tree.required .insert .values).branches.mapM Tree.leafText
      .ok (Statement.insert table attributes literals)) = .ok s → s.keyword = .insert := by
    intro table attributes h
    obtain ⟨clause, -, h⟩ := bind_eq_ok_iff.1 h
    obtain ⟨literals, -, h⟩ := bind_eq_ok_iff.1 h
    rw [← Except.ok.inj h]
    rfl
  obtain ⟨table, -, h⟩ := bind_eq_ok_iff.1 h
  -- the attributes are given or not
  dsimp only at h
  split at h
  · obtain ⟨attributes, -, h⟩ := bind_eq_ok_iff.1 h
    exact rest table attributes h
  · exact rest table [] h

theorem keyword_of_delete (h : deleteOfTree tree = .ok s) : s.keyword = .delete := by
  obtain ⟨table, -, h⟩ := bind_eq_ok_iff.1 h
  obtain ⟨selection, -, h⟩ := bind_eq_ok_iff.1 h
  rw [← Except.ok.inj h]
  rfl

theorem keyword_of_drop (h : dropOfTree tree = .ok s) : s.keyword = .drop := by
  obtain ⟨table, -, h⟩ := bind_eq_ok_iff.1 h
  rw [← Except.ok.inj h]
  rfl

end Statement

/-- Several sources leave the condition as it is written. -/
theorem Condition.over_of_not_single {names : List String} (h : ∀ only, names ≠ [only])
    (condition : Option Condition) : Condition.over names condition = condition := by
  unfold Condition.over
  split
  · next only => exact absurd rfl (h only)
  · rfl

/-- No condition stays none. -/
theorem Condition.over_none (names : List String) : Condition.over names none = none := by
  unfold Condition.over
  split <;> rfl

/-- **What lowering establishes for a query.** -/
structure Query.LoweredFrom (q : Query) (tree : Tree) : Prop where
  /-- There is a column. -/
  listed : q.projection.headers ≠ []
  /-- No reference has more than one point. -/
  short : ∀ header ∈ q.projection.headers, header.toList.count referencePoint ≤ 1
  /-- The keys are made of the headers, by the number of sources. -/
  keys : q.projection.keys = q.projection.headers.map (Projection.key (q.tables.length == 1))
  /-- There is a source. -/
  named : q.tables ≠ []
  /-- The condition is the written one, without the prefix of a single source. -/
  selection : ∃ condition, tree.selection = .ok condition ∧
    q.selection = Condition.over q.tables condition

namespace Projection

/-- **A resolved list** has a header, none with two points, and for each header the key that the
number of sources makes of it. -/
theorem ofTree_eq_ok {tree : Tree} {p : Projection} (h : ofTree tree = .ok p) :
    p.headers ≠ [] ∧ (∀ header ∈ p.headers, header.toList.count referencePoint ≤ 1) ∧
      ∃ sources, tree.branch .sources = some sources ∧
        p.keys = p.headers.map (key (sources.branches.length == 1)) := by
  obtain ⟨columns, -, h⟩ := bind_eq_ok_iff.1 h
  obtain ⟨sources, required, h⟩ := bind_eq_ok_iff.1 h
  dsimp only at h
  split at h
  · cases h
  · next some =>
    obtain ⟨headers, read, h⟩ := bind_eq_ok_iff.1 h
    obtain rfl := Except.ok.inj h
    have each := mapM_eq_ok_iff.1 read
    refine ⟨?_, ?_, sources, ?_, rfl⟩
    · -- one header for each entry
      rintro rfl
      rw [List.forall₂_nil_right_iff] at each
      simp [each] at some
    · intro header member
      obtain ⟨entry, -, read⟩ := exists_of_mem_right each member
      -- a header is the text of an entry, which was checked for its points
      unfold reference at read
      split at read
      · cases read
      · split at read
        · next short =>
          rw [← Except.ok.inj read]
          exact short
        · cases read
    · unfold Tree.required at required
      split at required
      · next found => rw [found, Except.ok.inj required]
      · cases required

end Projection

namespace Statement

variable {tree : Tree} {s : Statement}

/-- What a query tree is lowered to. -/
theorem exists_query (h : selectOfTree tree = .ok s) :
    ∃ q : Query, s = .select q ∧ q.LoweredFrom tree := by
  obtain ⟨projection, projected, h⟩ := bind_eq_ok_iff.1 h
  obtain ⟨columns, -, h⟩ := bind_eq_ok_iff.1 h
  obtain ⟨sources, required, h⟩ := bind_eq_ok_iff.1 h
  obtain ⟨tables, wrapped, h⟩ := bind_eq_ok_iff.1 h
  obtain ⟨listed, short, sources', found, keys⟩ := Projection.ofTree_eq_ok projected
  -- both have looked at the same sources
  have same : sources' = sources := by
    rw [Tree.required, found] at required
    exact Except.ok.inj required
  rw [same, (mapM_eq_ok_iff.1 wrapped).length_eq] at keys
  dsimp only at h
  split at h
  · cases h
  · next only =>
    obtain ⟨condition, selected, h⟩ := bind_eq_ok_iff.1 h
    exact ⟨_, (Except.ok.inj h).symm, listed, short, keys, List.cons_ne_nil _ _, condition, selected,
      rfl⟩
  · next notNil notOne =>
    obtain ⟨condition, selected, h⟩ := bind_eq_ok_iff.1 h
    refine ⟨_, (Except.ok.inj h).symm, listed, short, keys, notNil, condition, selected, ?_⟩
    exact (Condition.over_of_not_single notOne condition).symm

/-- **The five ways of lowering.** -/
theorem ofTree_cases (h : ofTree tree = .ok s) :
    s.keyword = .create ∧ createOfTree tree = .ok s ∨
      s.keyword = .insert ∧ insertOfTree tree = .ok s ∨
      s.keyword = .select ∧ selectOfTree tree = .ok s ∨
      s.keyword = .delete ∧ deleteOfTree tree = .ok s ∨
      s.keyword = .drop ∧ dropOfTree tree = .ok s := by
  -- the words are tried one after the other
  unfold ofTree at h
  split at h
  · exact .inl ⟨keyword_of_create h, h⟩
  split at h
  · exact .inr (.inl ⟨keyword_of_insert h, h⟩)
  split at h
  · obtain ⟨q, rfl, -⟩ := exists_query h
    exact .inr (.inr (.inl ⟨rfl, h⟩))
  split at h
  · exact .inr (.inr (.inr (.inl ⟨keyword_of_delete h, h⟩)))
  split at h
  · exact .inr (.inr (.inr (.inr ⟨keyword_of_drop h, h⟩)))
  · cases h

/-- **Lowered queries** are as lowering makes them. -/
theorem loweredFrom_of_select {q : Query} (h : ofTree tree = .ok (.select q)) :
    q.LoweredFrom tree := by
  rcases ofTree_cases h with ⟨kind, -⟩ | ⟨kind, -⟩ | ⟨-, select⟩ | ⟨kind, -⟩ | ⟨kind, -⟩
  · cases kind
  · cases kind
  · obtain ⟨q', same, lowered⟩ := exists_query select
    rw [Statement.select.inj same]
    exact lowered
  · cases kind
  · cases kind

/-- **Lowered deletions** have the written condition without the prefix of their table. -/
theorem selection_of_delete {table : String} {selection : Option Condition}
    (h : ofTree tree = .ok (.delete table selection)) :
    ∃ condition, tree.selection = .ok condition ∧
      selection = Condition.over [table] condition := by
  rcases ofTree_cases h with ⟨kind, -⟩ | ⟨kind, -⟩ | ⟨kind, -⟩ | ⟨-, delete⟩ | ⟨kind, -⟩
  · cases kind
  · cases kind
  · cases kind
  · obtain ⟨table', -, h⟩ := bind_eq_ok_iff.1 delete
    obtain ⟨condition, selected, h⟩ := bind_eq_ok_iff.1 h
    obtain ⟨rfl, rfl⟩ := Statement.delete.inj (Except.ok.inj h)
    exact ⟨condition, selected, rfl⟩
  · cases kind

end Statement

end RelEngine
