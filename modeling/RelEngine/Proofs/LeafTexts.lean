import RelEngine.Proofs.ColumnLists
import RelEngine.Proofs.ConditionMeaning

/-!
# Texts of leaves

A tree carries two kinds of text. The kinds of inner nodes are words of the statement language, and the
texts of leaves are the user's. Lowering reads the words and hands on the texts. Here it is said without
its steps, for every kind of statement, which words there have to be and which leaf each text is from
(`Statement.TakenFrom`). A text is handed on as it stands, or behind a point if its front names the
single table. No character of it is changed.

There is one place where the lowering does not look whether it has a leaf before it. The reference of a
column list entry is the kind of its first child, whatever is below that. A tree that has leaves there
has `LeafReferences`, and only such a tree keeps its words apart from its texts.

* `Tree.Wraps`, `Tree.Declares`, `Condition.WrittenIn`, `Tree.Selects` — where the texts of each clause
  stand;
* `Statement.ofTree_eq_ok_iff` — a tree is lowered to the statements that are taken from it.
-/

namespace RelEngine

/-! ### Leaves and wrappers -/

namespace Tree

variable {t : Tree} {text : String}

/-- **A wrapper of a text** has a leaf with the text as its first branch. -/
def Wraps (t : Tree) (text : String) : Prop := t.firstChild? = some (leaf text)

/-- **A statement about a table** has its name in the first `TABLE` branch. -/
def NamesTable (tree : Tree) (table : String) : Prop :=
  ∃ clause, tree.branch .table = some clause ∧ clause.Wraps table

/-- **A declaration of a field** is an `ATTRIBUTE` with two leaves: the field's name, and a name of its
type. -/
def Declares (t : Tree) (f : Field) : Prop :=
  t.is .attribute = true ∧
    ∃ type, t.branches = [leaf f.name, leaf type] ∧ ColumnType.ofName? type = some f.type

/-- The text of a leaf is taken from a leaf only. -/
theorem leafText_eq_ok_iff : t.leafText = .ok text ↔ t = leaf text := by
  obtain ⟨kind, branches⟩ := t
  constructor
  · intro h
    unfold leafText at h
    split at h
    · next empty =>
      obtain rfl : branches = [] := List.isEmpty_iff.1 empty
      rw [← Except.ok.inj h]
      rfl
    · cases h
  · intro h
    rw [h]
    rfl

/-- The text that a branch wraps is that of its first child, if this is a leaf. -/
theorem wrappedText_eq_ok_iff : t.wrappedText = .ok text ↔ t.Wraps text := by
  unfold wrappedText Wraps
  cases t.firstChild? with
  | none => simp
  | some child => simp [leafText_eq_ok_iff]

/-- The texts of some leaves, and of nothing else. -/
theorem mapM_leafText_eq_ok_iff {branches : List Tree} {texts : List String} :
    branches.mapM leafText = .ok texts ↔ branches = texts.map leaf := by
  have each : (fun t text => leafText t = .ok text) = fun t text => t = leaf text := by
    funext t text
    exact propext leafText_eq_ok_iff
  rw [mapM_eq_ok_iff, each, ← List.forall₂_map_right_iff, List.forall₂_eq_eq_eq]

/-- The table of a statement is named by the first child of its clause. -/
theorem tableName_eq_ok_iff {statement : Keyword} :
    t.tableName statement = .ok text ↔ t.NamesTable text := by
  unfold tableName NamesTable
  simp only [bind_eq_ok_iff, required_eq_ok_iff, wrappedText_eq_ok_iff]

/-- **A declaration** has two leaves, a name and the name of a type. -/
theorem declaredField_eq_ok_iff {f : Field} : t.declaredField = .ok f ↔ t.Declares f := by
  constructor
  · intro h
    unfold declaredField at h
    split at h
    · next first second two =>
      split at h
      · next word =>
        -- both children are leaves, and the second one names a type
        obtain ⟨name, named, h⟩ := bind_eq_ok_iff.1 h
        obtain ⟨type, typed, h⟩ := bind_eq_ok_iff.1 h
        split at h
        · next known =>
          obtain rfl := Except.ok.inj h
          rw [leafText_eq_ok_iff.1 named, leafText_eq_ok_iff.1 typed] at two
          exact ⟨word, type, two, known⟩
        · cases h
      · cases h
    · cases h
  · rintro ⟨word, type, two, known⟩
    unfold declaredField
    rw [two]
    dsimp only
    rw [if_pos word, leafText_eq_ok_iff.2 rfl, leafText_eq_ok_iff.2 rfl, ok_bind, ok_bind, known]

end Tree

/-! ### Conditions -/

/-- **The operand of a text.** With a single table, what stands behind the table's name and a point is
the operand, if the text begins so, and otherwise the text is. -/
inductive Condition.OperandOf (tables : List String) : String → String → Prop
  | column {table column : String} (single : tables = [table]) :
      OperandOf tables (table ++ "." ++ column) column
  | whole {text : String}
      (bare : ∀ table column, tables = [table] → text ≠ table ++ "." ++ column) :
      OperandOf tables text text

/-- **A condition is written in a tree**: as a comparison of two leaves, or as a connective of two trees
with conditions in them. Operands are in relation `R` to the texts of the leaves. -/
inductive Condition.WrittenIn (R : String → String → Prop) : Condition → Tree → Prop
  | equal {kind left right l r : String}
      (sign : (Tree.node kind [.leaf left, .leaf right]).is .equality = true)
      (first : R left l) (second : R right r) :
      WrittenIn R (.equal l r) (.node kind [.leaf left, .leaf right])
  | and {kind : String} {a b : Tree} {c d : Condition}
      (word : (Tree.node kind [a, b]).is .conjunction = true)
      (first : WrittenIn R c a) (second : WrittenIn R d b) :
      WrittenIn R (.and c d) (.node kind [a, b])
  | or {kind : String} {a b : Tree} {c d : Condition}
      (word : (Tree.node kind [a, b]).is .disjunction = true)
      (first : WrittenIn R c a) (second : WrittenIn R d b) :
      WrittenIn R (.or c d) (.node kind [a, b])

/-- **The condition of a statement**, on rows of some tables: none without a `WHERE` branch, and
otherwise the one that is written in the first child of the first such branch. -/
inductive Tree.Selects (tree : Tree) (tables : List String) : Option Condition → Prop
  | all (absent : tree.branch .selection = none) : Selects tree tables none
  | those {clause written : Tree} {c : Condition} (present : tree.branch .selection = some clause)
      (first : clause.firstChild? = some written)
      (condition : c.WrittenIn (Condition.OperandOf tables) written) : Selects tree tables (some c)

namespace Condition

variable {t : Tree} {c : Condition} {text operand : String}

/-- With one table, an operand is the text without the name of that table before it. -/
theorem operandOf_single_iff {table : String} :
    OperandOf [table] text operand ↔ unqualifiedOperand table text = operand := by
  constructor
  · intro h
    cases h with
    | column single =>
      rw [← List.singleton_inj.1 single]
      exact unqualifiedOperand_point table operand
    | whole bare => exact unqualifiedOperand_of_not_point fun column => bare table column rfl
  · rintro rfl
    -- either the name of the table stands before the operand or it does not
    by_cases prefixed : ∃ column, text = table ++ "." ++ column
    · obtain ⟨column, rfl⟩ := prefixed
      rw [unqualifiedOperand_point]
      exact .column rfl
    · have bare : ∀ column, text ≠ table ++ "." ++ column := fun column same => prefixed ⟨column, same⟩
      rw [unqualifiedOperand_of_not_point bare]
      refine .whole fun only column single => ?_
      rw [← List.singleton_inj.1 single]
      exact bare column

/-- With several tables, or none, an operand is the whole text. -/
theorem operandOf_several_iff {tables : List String} (several : ∀ table, tables ≠ [table]) :
    OperandOf tables text operand ↔ text = operand := by
  constructor
  · intro h
    cases h with
    | column single => exact absurd single (several _)
    | whole bare => rfl
  · rintro rfl
    exact .whole fun table _ single => absurd single (several table)

/-- **The condition of a tree** has the texts of its leaves as operands. -/
theorem ofTree_eq_ok_iff : ofTree t = .ok c ↔ c.WrittenIn Eq t := by
  constructor
  · intro h
    -- on the tree: the connectives take their conditions from branches
    induction t generalizing c with
    | node kind branches ih =>
      unfold ofTree at h
      split at h
      · next k a b same =>
        obtain ⟨rfl, rfl⟩ := Tree.node.inj same
        have first := @ih a (by simp)
        have second := @ih b (by simp)
        dsimp only at h
        -- a comparison, a conjunction or a disjunction, by the word that the kind spells
        split at h
        · next sign =>
          obtain ⟨left, isLeft, h⟩ := bind_eq_ok_iff.1 h
          obtain ⟨right, isRight, h⟩ := bind_eq_ok_iff.1 h
          obtain rfl := Except.ok.inj h
          obtain rfl := Tree.leafText_eq_ok_iff.1 isLeft
          obtain rfl := Tree.leafText_eq_ok_iff.1 isRight
          exact .equal sign rfl rfl
        split at h
        · next word =>
          obtain ⟨left, isLeft, h⟩ := bind_eq_ok_iff.1 h
          obtain ⟨right, isRight, h⟩ := bind_eq_ok_iff.1 h
          obtain rfl := Except.ok.inj h
          exact .and word (first isLeft) (second isRight)
        split at h
        · next word =>
          obtain ⟨left, isLeft, h⟩ := bind_eq_ok_iff.1 h
          obtain ⟨right, isRight, h⟩ := bind_eq_ok_iff.1 h
          obtain rfl := Except.ok.inj h
          exact .or word (first isLeft) (second isRight)
        · cases h
      · cases h
  · intro h
    -- on the condition: no word is another one, so each is found behind those that are asked for first
    induction h with
    | equal sign first second =>
      obtain rfl := first
      obtain rfl := second
      exact if_pos sign
    | and word _ _ first second =>
      have noSign := Tree.is_of_is word .equality
      unfold ofTree
      dsimp only
      rw [noSign, word, first, second]
      rfl
    | or word _ _ first second =>
      have noSign := Tree.is_of_is word .equality
      have noAnd := Tree.is_of_is word .conjunction
      unfold ofTree
      dsimp only
      rw [noSign, noAnd, word, first, second]
      rfl

/-- Freed of the prefix of a single table, a condition stays written in its tree. -/
theorem writtenIn_single_iff {table : String} : c.WrittenIn (OperandOf [table]) t ↔
    ∃ written : Condition, written.WrittenIn Eq t ∧ written.unqualified table = c := by
  constructor
  · intro h
    -- on the written condition: the operands lose their prefix, the words in between stay
    induction h with
    | @equal _ left right _ _ sign first second =>
      refine ⟨.equal left right, .equal sign rfl rfl, ?_⟩
      rw [unqualified, operandOf_single_iff.1 first, operandOf_single_iff.1 second]
    | and word _ _ first second =>
      obtain ⟨c, first, rfl⟩ := first
      obtain ⟨d, second, rfl⟩ := second
      exact ⟨.and c d, .and word first second, rfl⟩
    | or word _ _ first second =>
      obtain ⟨c, first, rfl⟩ := first
      obtain ⟨d, second, rfl⟩ := second
      exact ⟨.or c d, .or word first second, rfl⟩
  · rintro ⟨written, h, rfl⟩
    induction h with
    | equal sign first second =>
      obtain rfl := first
      obtain rfl := second
      exact .equal sign (operandOf_single_iff.2 rfl) (operandOf_single_iff.2 rfl)
    | and word _ _ first second => exact .and word first second
    | or word _ _ first second => exact .or word first second

/-- **The condition on rows of some tables** is that of the tree, as it is evaluated there. -/
theorem writtenIn_iff_over {tables : List String} : c.WrittenIn (OperandOf tables) t ↔
    ∃ written, ofTree t = .ok written ∧ Condition.over tables (some written) = some c := by
  simp only [ofTree_eq_ok_iff]
  by_cases single : ∃ table, tables = [table]
  · obtain ⟨table, rfl⟩ := single
    rw [writtenIn_single_iff]
    exact exists_congr fun written => and_congr_right fun _ => Option.some_inj.symm
  · have several : ∀ table, tables ≠ [table] := fun table one => single ⟨table, one⟩
    have own : OperandOf tables = Eq := by
      funext text operand
      exact propext (operandOf_several_iff several)
    simp [own, over_of_not_single several]

/-- Whatever the tables are, a condition stays a condition. -/
theorem exists_over (tables : List String) (c : Condition) :
    ∃ c', Condition.over tables (some c) = some c' := by
  unfold Condition.over
  split <;> exact ⟨_, rfl⟩

end Condition

namespace Tree

variable {tree : Tree} {c : Condition}

/-- There is no condition exactly if there is no clause for one. -/
theorem selection_eq_none_iff : tree.selection = .ok none ↔ tree.branch .selection = none := by
  unfold selection
  cases tree.branch .selection with
  | none => simp
  | some clause =>
    dsimp only
    cases clause.firstChild? with
    | none => simp
    | some first => cases lowered : Condition.ofTree first <;> simp [lowered, Except.map]

/-- The condition is that of the first child of its clause. -/
theorem selection_eq_some_iff : tree.selection = .ok (some c) ↔
    ∃ clause first, tree.branch .selection = some clause ∧ clause.firstChild? = some first ∧
      Condition.ofTree first = .ok c := by
  unfold selection
  cases tree.branch .selection with
  | none => simp
  | some clause =>
    cases child : clause.firstChild? with
    | none => simp [child]
    | some first => cases lowered : Condition.ofTree first <;> simp [child, lowered, Except.map]

/-- The condition of a query or a deletion is the one that it is lowered to. -/
theorem selects_iff {tables : List String} {selection : Option Condition} :
    tree.Selects tables selection ↔
      ∃ written, tree.selection = .ok written ∧ Condition.over tables written = selection := by
  constructor
  · intro h
    cases h with
    | all absent =>
      exact ⟨none, selection_eq_none_iff.2 absent, Condition.over_none tables⟩
    | those present first condition =>
      obtain ⟨written, lowered, evaluated⟩ := Condition.writtenIn_iff_over.1 condition
      exact ⟨some written, selection_eq_some_iff.2 ⟨_, _, present, first, lowered⟩, evaluated⟩
  · rintro ⟨written, h, rfl⟩
    cases written with
    | none =>
      rw [Condition.over_none]
      exact .all (selection_eq_none_iff.1 h)
    | some written =>
      obtain ⟨clause, first, present, child, lowered⟩ := selection_eq_some_iff.1 h
      -- what is evaluated is the written condition, seen over the tables
      obtain ⟨c, evaluated⟩ := Condition.exists_over tables written
      rw [evaluated]
      exact .those present child (Condition.writtenIn_iff_over.2 ⟨written, lowered, evaluated⟩)

end Tree

/-! ### References -/

/-- **A reference** is a text in a wrapper, with one point at most. -/
def Tree.WrapsReference (entry : Tree) (header : String) : Prop :=
  entry.Wraps header ∧ header.toList.count referencePoint ≤ 1

/-- **References that are leaves**: if the tree is a query, the first child of every entry of its column
list is one. -/
def Tree.LeafReferences (tree : Tree) : Prop :=
  tree.is .select = true → ∀ columns list, tree.branch .columns = some columns →
    columns.Lists list → ∀ entry ∈ list, ∀ child ∈ entry.firstChild?, child.isLeaf = true

/-- **Distinct rows** are asked for by a `DISTINCT` node that comes first in the column list. -/
def Tree.AsksDistinct (tree : Tree) : Prop :=
  ∃ columns first, tree.branch .columns = some columns ∧ columns.firstChild? = some first ∧
    first.is .distinct = true

namespace Projection

/-- A reference that stands in a leaf is a reference. -/
theorem refersBy_of_wraps {entry : Tree} {header : String} (h : entry.WrapsReference header) :
    entry.RefersBy header :=
  ⟨.leaf header, h.1, rfl, h.2⟩

/-- Headers are texts of leaves, if the entries have leaves. -/
theorem wraps_of_refersBy {list : List Tree} {headers : List String}
    (leaves : ∀ entry ∈ list, ∀ child ∈ entry.firstChild?, child.isLeaf = true)
    (refers : List.Forall₂ Tree.RefersBy list headers) :
    List.Forall₂ Tree.WrapsReference list headers := by
  have both := (List.forall₂_and_left list headers).2 ⟨leaves, refers⟩
  refine both.imp fun entry header ⟨leaf, child, first, text, short⟩ => ⟨?_, short⟩
  -- a leaf is given by its text, a clause would not be
  have empty : child.branches = [] := List.isEmpty_iff.1 (leaf child first)
  obtain ⟨kind, branches⟩ := child
  obtain rfl : branches = [] := empty
  obtain rfl : kind = header := text
  exact first

/-- The flag is set exactly if the list begins with the word for it. -/
theorem isDistinct_eq_true_iff {tree columns : Tree} (listed : tree.branch .columns = some columns) :
    isDistinct columns = true ↔ tree.AsksDistinct := by
  unfold isDistinct Tree.AsksDistinct
  cases first : columns.firstChild? with
  | none => simp [listed, first]
  | some child => simp [listed, first]

end Projection

/-! ### Statements -/

/-- **A statement is taken from a tree**: the tree spells its word, and each of its texts is that of a
leaf, at a place that a clause has for it, or is left of such a text behind the name of a single
table. -/
inductive Statement.TakenFrom (tree : Tree) : Statement → Prop
  | create {declarations : Tree} {table : String} {fields : List Field}
      (word : tree.is .create = true) (about : tree.NamesTable table)
      (clause : tree.branch .attributes = some declarations)
      (declared : List.Forall₂ Tree.Declares declarations.branches fields) :
      TakenFrom tree (.create table fields)
  | insert {values : Tree} {table : String} {attributes literals : List String}
      (word : tree.is .insert = true) (about : tree.NamesTable table)
      (given : (tree.branch .attributes).elim [] Tree.branches = attributes.map .leaf)
      (clause : tree.branch .values = some values) (row : values.branches = literals.map .leaf) :
      TakenFrom tree (.insert table attributes literals)
  | select {sources : Tree} {list : List Tree} {q : Query} (word : tree.is .select = true)
      (has : tree.HasList list q.tables.length)
      (headers : List.Forall₂ Tree.WrapsReference list q.projection.headers)
      (keys : List.Forall₂ (Projection.FetchedBy (q.tables.length = 1))
        q.projection.headers q.projection.keys)
      (flag : q.distinct = true ↔ tree.AsksDistinct)
      (clause : tree.branch .sources = some sources)
      (tables : List.Forall₂ Tree.Wraps sources.branches q.tables) (named : q.tables ≠ [])
      (selection : tree.Selects q.tables q.selection) : TakenFrom tree (.select q)
  | delete {table : String} {selection : Option Condition} (word : tree.is .delete = true)
      (about : tree.NamesTable table) (those : tree.Selects [table] selection) :
      TakenFrom tree (.delete table selection)
  | drop {table : String} (word : tree.is .drop = true) (about : tree.NamesTable table) :
      TakenFrom tree (.drop table)

namespace Statement

variable {tree : Tree} {s : Statement}

/-- A creation takes a table and its declared fields. -/
theorem createOfTree_eq_ok_iff : createOfTree tree = .ok s ↔
    ∃ table, tree.NamesTable table ∧ ∃ declarations, tree.branch .attributes = some declarations ∧
      ∃ fields, List.Forall₂ Tree.Declares declarations.branches fields ∧ .create table fields = s := by
  unfold createOfTree
  simp only [bind_eq_ok_iff, Tree.tableName_eq_ok_iff, Tree.required_eq_ok_iff, mapM_eq_ok_iff,
    Tree.declaredField_eq_ok_iff, Except.ok.injEq]

/-- An insertion takes a table, attributes if there are any, and literals. -/
theorem insertOfTree_eq_ok_iff : insertOfTree tree = .ok s ↔
    ∃ table, tree.NamesTable table ∧
      ∃ attributes, (tree.branch .attributes).elim [] Tree.branches = attributes.map .leaf ∧
        ∃ values, tree.branch .values = some values ∧
          ∃ literals, values.branches = literals.map .leaf ∧
            .insert table attributes literals = s := by
  -- attributes that are left out are an empty list of leaves
  have none_iff (attributes : List String) :
      [] = attributes ↔ ([] : List Tree) = attributes.map .leaf := by
    rw [eq_comm, ← List.map_eq_nil_iff, eq_comm]
  unfold insertOfTree
  cases given : tree.branch .attributes <;>
    simp only [bind_eq_ok_iff, Tree.tableName_eq_ok_iff, Tree.required_eq_ok_iff,
      Tree.mapM_leafText_eq_ok_iff, Except.ok.injEq, none_iff, Option.elim_none, Option.elim_some]

/-- A deletion takes a table and a condition over it. -/
theorem deleteOfTree_eq_ok_iff : deleteOfTree tree = .ok s ↔
    ∃ table, tree.NamesTable table ∧ ∃ selection, tree.Selects [table] selection ∧
      .delete table selection = s := by
  unfold deleteOfTree
  simp only [bind_eq_ok_iff, Tree.tableName_eq_ok_iff, Tree.selects_iff, exists_exists_and_eq_and,
    Except.ok.injEq]
  rfl

theorem dropOfTree_eq_ok_iff : dropOfTree tree = .ok s ↔
    ∃ table, tree.NamesTable table ∧ .drop table = s := by
  unfold dropOfTree
  simp only [bind_eq_ok_iff, Tree.tableName_eq_ok_iff, Except.ok.injEq]

/-- A query takes a column list, tables of which there has to be one, and a condition over them. -/
theorem selectOfTree_eq_ok_iff : selectOfTree tree = .ok s ↔
    ∃ projection, Projection.ofTree tree = .ok projection ∧
      ∃ columns, tree.branch .columns = some columns ∧
        ∃ sources, tree.branch .sources = some sources ∧
          ∃ tables, List.Forall₂ Tree.Wraps sources.branches tables ∧ tables ≠ [] ∧
            ∃ selection, tree.Selects tables selection ∧
              .select ⟨projection, Projection.isDistinct columns, tables, selection⟩ = s := by
  unfold selectOfTree
  simp only [bind_eq_ok_iff, Tree.required_eq_ok_iff, mapM_eq_ok_iff, Tree.wrappedText_eq_ok_iff,
    Tree.selects_iff, exists_exists_and_eq_and]
  refine exists_congr fun projection => and_congr_right fun _ => ?_
  refine exists_congr fun columns => and_congr_right fun _ => ?_
  refine exists_congr fun sources => and_congr_right fun _ => ?_
  refine exists_congr fun tables => and_congr_right fun _ => ?_
  -- without a table there is no query, and with a single one its prefix goes
  split
  · simp
  · simp [bind_eq_ok_iff, Condition.over]
  · next some notSingle =>
    have named : tables ≠ [] := some
    simp [bind_eq_ok_iff, named, Condition.over_of_not_single notSingle]

/-- A lowered query has all its texts from the tree. -/
theorem takenFrom_of_select (word : tree.is .select = true) (leaves : tree.LeafReferences)
    (h : selectOfTree tree = .ok s) : s.TakenFrom tree := by
  obtain ⟨projection, projected, columns, listed, sources, clause, tables, wrapped, named, selection,
    selects, rfl⟩ := selectOfTree_eq_ok_iff.1 h
  obtain ⟨list, count, has, refers, keys⟩ := Projection.ofTree_eq_ok_iff.1 projected
  -- the resolver has counted the branches that the tables are from
  obtain rfl : count = tables.length := by
    obtain ⟨sources', there, rfl⟩ := has.sources
    obtain rfl : sources' = sources := Option.some.inj (there.symm.trans clause)
    exact wrapped.length_eq
  obtain ⟨columns', listed', lists⟩ := has.columns
  have leaf := leaves word columns' list listed' lists
  exact .select word has (Projection.wraps_of_refersBy leaf refers) keys
    (Projection.isDistinct_eq_true_iff listed) clause wrapped named selects

/-- And a query whose texts are those of the tree is what the tree is lowered to. -/
theorem selectOfTree_of_takenFrom {q : Query} (h : TakenFrom tree (.select q)) :
    selectOfTree tree = .ok (.select q) := by
  cases h with
  | @select sources list _ word has headers keys flag clause tables named selection =>
    obtain ⟨columns, listed, -⟩ := has.columns
    have projected : Projection.ofTree tree = .ok q.projection :=
      Projection.ofTree_eq_ok_iff.2 ⟨list, q.tables.length, has,
        headers.imp fun _ _ => Projection.refersBy_of_wraps, keys⟩
    -- the flag is said by its meaning, and the code has a test
    have distinct : Projection.isDistinct columns = q.distinct := by
      rw [Bool.eq_iff_iff, Projection.isDistinct_eq_true_iff listed, flag]
    refine selectOfTree_eq_ok_iff.2 ⟨q.projection, projected, columns, listed, sources, clause,
      q.tables, tables, named, q.selection, selection, ?_⟩
    rw [distinct]

/-- **A tree is lowered to what is taken from it**, if its references are leaves. -/
theorem ofTree_eq_ok_iff (leaves : tree.LeafReferences) : ofTree tree = .ok s ↔ s.TakenFrom tree := by
  constructor
  · intro h
    -- the words are tried in turn, so each case knows its own
    unfold ofTree at h
    split at h
    · next word =>
      obtain ⟨table, about, _, clause, fields, declared, rfl⟩ := createOfTree_eq_ok_iff.1 h
      exact .create word about clause declared
    split at h
    · next word =>
      obtain ⟨table, about, attributes, given, _, clause, literals, row, rfl⟩ :=
        insertOfTree_eq_ok_iff.1 h
      exact .insert word about given clause row
    split at h
    · next word => exact takenFrom_of_select word leaves h
    split at h
    · next word =>
      obtain ⟨table, about, selection, those, rfl⟩ := deleteOfTree_eq_ok_iff.1 h
      exact .delete word about those
    split at h
    · next word =>
      obtain ⟨table, about, rfl⟩ := dropOfTree_eq_ok_iff.1 h
      exact .drop word about
    · cases h
  · intro h
    have whole := h
    -- the word that the statement is taken by is the way that the tree goes
    cases h with
    | create word about clause declared =>
      rw [ofTree_of_is word]
      exact createOfTree_eq_ok_iff.2 ⟨_, about, _, clause, _, declared, rfl⟩
    | insert word about given clause row =>
      rw [ofTree_of_is word]
      exact insertOfTree_eq_ok_iff.2 ⟨_, about, _, given, _, clause, _, row, rfl⟩
    | select word =>
      rw [ofTree_of_is word]
      exact selectOfTree_of_takenFrom whole
    | delete word about those =>
      rw [ofTree_of_is word]
      exact deleteOfTree_eq_ok_iff.2 ⟨_, about, _, those, rfl⟩
    | drop word about =>
      rw [ofTree_of_is word]
      exact dropOfTree_eq_ok_iff.2 ⟨_, about, rfl⟩

end Statement

end RelEngine
