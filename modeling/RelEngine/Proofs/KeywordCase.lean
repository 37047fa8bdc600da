import RelEngine.Proofs.LeafTexts

/-!
# The letter case of keywords

Keywords are read in any letter case. Two trees that differ in the letter case of their inner nodes are
lowered to the same statement, or fail with errors of the same kind (`Statement.ofTree_alike`). The
errors themselves may differ, since some of them quote what they have found.

Lowering is gone through once, on both trees at a time. Every step on the one tree has its step on the
other, and the two are `Alike`: they have related results, or both fail. Such pairs of steps are put
together like the steps are (`Alike.bind`, `Alike.mapM`). What the trees are asked for is little. A test
for a keyword has the same outcome on both, and branches that are looked up are recased again.

* `Tree.Recased`, `Error.kind`, `Alike` — what is compared, and up to what;
* `Statement.keyword_case_is_free` — keywords have no letter case, and texts keep theirs.
-/

namespace RelEngine

/-! ### Errors up to their kind -/

/-- **The kinds of errors.** -/
inductive Error.Kind where
  | tableNotFound
  | tableExists
  | columnNotFound
  | ambiguousColumn
  | unreadable
  | malformed
  | unknownStatement
  | mismatch
  /-- Of the input or the output. -/
  | device
deriving DecidableEq, Repr

/-- The kind of an error, without what it is about. -/
def Error.kind : Error → Error.Kind
  | tableNotFound _ => .tableNotFound
  | tableExists _ => .tableExists
  | columnNotFound _ => .columnNotFound
  | ambiguousColumn _ => .ambiguousColumn
  | unreadable _ => .unreadable
  | malformed _ => .malformed
  | unknownStatement _ => .unknownStatement
  | mismatch _ => .mismatch
  | outputClosed => .device
  | inputNotText => .device

/-- **Two computations go alike**: both have results, which are related, or both fail with errors of one
kind. -/
inductive Alike {α β : Type} (R : α → β → Prop) : Except Error α → Except Error β → Prop
  | ok {a : α} {b : β} (related : R a b) : Alike R (.ok a) (.ok b)
  | error {err err' : Error} (kind : err.kind = err'.kind) : Alike R (.error err) (.error err')

namespace Alike

variable {α β γ δ : Type} {R : α → β → Prop} {S : γ → δ → Prop}

/-- Two sequences are alike when their first steps are, and the later ones are alike on related
results. -/
theorem bind {x : Except Error α} {y : Except Error β} {f : α → Except Error γ}
    {g : β → Except Error δ} (h : Alike R x y) (next : ∀ a b, R a b → Alike S (f a) (g b)) :
    Alike S (x >>= f) (y >>= g) := by
  cases h with
  | ok related => exact next _ _ related
  | error kind => exact .error kind

/-- A step for each element goes alike, if that is so for any two elements that are related. -/
theorem mapM {f : α → Except Error γ} {g : β → Except Error δ} {xs : List α} {ys : List β}
    (h : List.Forall₂ R xs ys) (each : ∀ a b, R a b → Alike S (f a) (g b)) :
    Alike (List.Forall₂ S) (xs.mapM f) (ys.mapM g) := by
  induction h with
  | nil => exact .ok .nil
  | cons related _ rest =>
    rw [List.mapM_cons, List.mapM_cons]
    refine (each _ _ related).bind fun c d first => rest.bind fun cs ds others => ?_
    exact .ok (.cons first others)

/-- The same results in both, one for each element. -/
theorem mapM_eq {f : α → Except Error γ} {g : β → Except Error γ} {xs : List α} {ys : List β}
    (h : List.Forall₂ R xs ys) (each : ∀ a b, R a b → Alike Eq (f a) (g b)) :
    Alike Eq (xs.mapM f) (ys.mapM g) := by
  rw [← List.forall₂_eq_eq_eq]
  exact mapM h each

theorem map {x y : Except Error α} (h : Alike Eq x y) (f : α → γ) :
    Alike Eq (x.map f) (y.map f) := by
  cases h with
  | ok same => exact .ok (congrArg f same)
  | error kind => exact .error kind

/-- What is alike a result is that result. -/
theorem eq_ok {a : α} {y : Except Error α} (h : Alike Eq (.ok a) y) : y = .ok a := by
  cases h with
  | ok same => rw [same]

protected theorem rfl {x : Except Error α} : Alike Eq x x := by
  cases x with
  | ok a => exact .ok rfl
  | error err => exact .error rfl

/-- A step that goes on with the same result in both. -/
theorem bind_eq {x y : Except Error α} {f : α → Except Error γ} {g : α → Except Error δ}
    (h : Alike Eq x y) (next : ∀ a, Alike S (f a) (g a)) : Alike S (x >>= f) (y >>= g) :=
  h.bind fun a _ same => same ▸ next a

end Alike

/-! ### Recased trees -/

/-- **A recased tree** is the other one but for the letter case in the kinds of nodes that have
branches. -/
inductive Tree.Recased : Tree → Tree → Prop
  | leaf (text : String) : Recased (leaf text) (leaf text)
  | node {kind kind' : String} {branches branches' : List Tree} (inner : branches ≠ [])
      (letters : Text.sameLetters kind kind' = true)
      (each : List.Forall₂ Recased branches branches') :
      Recased (node kind branches) (node kind' branches')

namespace Tree

variable {t t' : Tree}

namespace Recased

/-- The branches are recased one by one. -/
theorem branches (h : Recased t t') : List.Forall₂ Recased t.branches t'.branches := by
  cases h with
  | leaf text => exact .nil
  | node _ _ each => exact each

/-- A keyword is spelled by both trees or by none. -/
theorem is_eq (h : Recased t t') (k : Keyword) : t.is k = t'.is k := by
  cases h with
  | leaf text => rfl
  | node _ letters _ =>
    -- of a kind only the lower-case form is compared
    have same : Text.lower _ = Text.lower _ := Text.sameLetters_iff.1 letters
    rw [is, is, kind_node, kind_node, Text.sameLetters, Text.sameLetters, same]

/-- Recasing turns no leaf into a node. -/
theorem isLeaf_eq (h : Recased t t') : t.isLeaf = t'.isLeaf := by
  cases h with
  | leaf text => rfl
  | node _ _ each => cases each <;> rfl

/-- A leaf keeps its text. -/
theorem eq_of_isLeaf (h : Recased t t') (isLeaf : t.isLeaf = true) : t = t' := by
  cases h with
  | leaf text => rfl
  | node inner _ _ => exact absurd (List.isEmpty_iff.1 isLeaf) inner

/-- A first child is there in both trees, and recased, or in none. -/
theorem firstChild?_cases (h : Recased t t') :
    (t.firstChild? = none ∧ t'.firstChild? = none) ∨
      ∃ b b', t.firstChild? = some b ∧ t'.firstChild? = some b' ∧ Recased b b' := by
  cases h with
  | leaf text => exact .inl ⟨rfl, rfl⟩
  | node inner _ each =>
    cases each with
    | nil => exact absurd rfl inner
    | cons first _ => exact .inr ⟨_, _, rfl, rfl, first⟩

/-- The branches are passed over together, up to the first one of a kind. -/
theorem find?_cases {branches branches' : List Tree} (each : List.Forall₂ Recased branches branches')
    (k : Keyword) :
    (branches.find? (·.is k) = none ∧ branches'.find? (·.is k) = none) ∨
      ∃ b b', branches.find? (·.is k) = some b ∧ branches'.find? (·.is k) = some b' ∧
        Recased b b' := by
  induction each with
  | nil => exact .inl ⟨rfl, rfl⟩
  | @cons b b' _ _ first _ rest =>
    -- the first branch is the one that is looked for in both lists, or in none
    rw [List.find?_cons, List.find?_cons, first.is_eq k]
    cases b'.is k with
    | true => exact .inr ⟨b, b', rfl, rfl, first⟩
    | false => exact rest

/-- A clause is found on both sides or on neither, and then it is recased. -/
theorem branch_cases (h : Recased t t') (k : Keyword) :
    (t.branch k = none ∧ t'.branch k = none) ∨
      ∃ b b', t.branch k = some b ∧ t'.branch k = some b' ∧ Recased b b' :=
  find?_cases h.branches k

end Recased

/-! ### Clauses -/

theorem leafText_alike (h : Recased t t') : Alike Eq t.leafText t'.leafText := by
  rw [leafText, leafText, ← h.isLeaf_eq]
  split
  · next isLeaf => exact .ok (congrArg kind (h.eq_of_isLeaf isLeaf))
  · -- the errors quote two trees, which may differ
    exact .error rfl

/-- The text in a branch is kept, since it is that of a leaf. -/
theorem wrappedText_alike (h : Recased t t') : Alike Eq t.wrappedText t'.wrappedText := by
  unfold wrappedText
  rcases h.firstChild?_cases with ⟨none, none'⟩ | ⟨child, child', first, first', recased⟩
  · rw [none, none']
    exact .error rfl
  · rw [first, first']
    exact leafText_alike recased

/-- A clause is there in both trees, and recased, or missing in both. -/
theorem required_alike (h : Recased t t') (statement clause : Keyword) :
    Alike (fun b b' => t.branch clause = some b ∧ Recased b b') (t.required statement clause)
      (t'.required statement clause) := by
  unfold required
  rcases h.branch_cases clause with ⟨none, none'⟩ | ⟨b, b', found, found', recased⟩
  · rw [none, none']
    exact .error rfl
  · rw [found, found']
    exact .ok ⟨rfl, recased⟩

theorem tableName_alike (h : Recased t t') (statement : Keyword) :
    Alike Eq (t.tableName statement) (t'.tableName statement) :=
  (required_alike h statement .table).bind fun _ _ ⟨_, recased⟩ => wrappedText_alike recased

/-- The texts of the branches of a clause. -/
theorem mapM_leafText_alike (h : Recased t t') :
    Alike Eq (t.branches.mapM leafText) (t'.branches.mapM leafText) :=
  Alike.mapM_eq h.branches fun _ _ => leafText_alike

/-- The word before a declaration may be recased, its name and its type are leaves. -/
theorem declaredField_alike (h : Recased t t') : Alike Eq t.declaredField t'.declaredField := by
  have word := h.is_eq .attribute
  unfold declaredField
  rw [word]
  cases h with
  | leaf text => exact .error rfl
  | node _ _ each =>
    -- only two branches are looked at
    rcases each with _ | ⟨name, _ | ⟨type, _ | _⟩⟩
    · exact .error rfl
    · exact .error rfl
    · dsimp only [branches_node]
      split
      · -- name and type are leaves, so from here on the two steps are the same
        exact (leafText_alike name).bind_eq fun name => (leafText_alike type).bind_eq fun type => .rfl
      · exact .error rfl
    · exact .error rfl

end Tree

/-- **A condition** has words at its nodes and operands in its leaves, so it is read as the same. -/
theorem Condition.ofTree_alike {t t' : Tree} (h : t.Recased t') :
    Alike Eq (ofTree t) (ofTree t') := by
  -- on the one tree, since the connectives ask for the conditions of both branches
  induction t generalizing t' with
  | node kind branches ih =>
    have word := h.is_eq
    cases h with
    | leaf text => exact .rfl
    | node _ _ each =>
      rcases each with _ | ⟨first, _ | ⟨second, _ | _⟩⟩
      · exact .error rfl
      · exact .error rfl
      · -- which of the three words it is does not change, and below it nothing does
        have left := ih _ (by simp) first
        have right := ih _ (by simp) second
        unfold ofTree
        dsimp only
        rw [word .equality, word .conjunction, word .disjunction]
        split
        · refine (Tree.leafText_alike first).bind_eq fun l => ?_
          exact (Tree.leafText_alike second).bind_eq fun r => .rfl
        split
        · exact left.bind_eq fun l => right.bind_eq fun r => .rfl
        split
        · exact left.bind_eq fun l => right.bind_eq fun r => .rfl
        · exact .error rfl
      · exact .error rfl

theorem Tree.selection_alike {t t' : Tree} (h : t.Recased t') :
    Alike Eq t.selection t'.selection := by
  unfold selection
  -- with or without a clause, and with or without a branch in it
  rcases h.branch_cases .selection with ⟨none, none'⟩ | ⟨clause, clause', found, found', recased⟩
  · rw [none, none']
    exact .rfl
  rw [found, found']
  dsimp only
  rcases recased.firstChild?_cases with ⟨none, none'⟩ | ⟨written, written', first, first', recased⟩
  · rw [none, none']
    exact .error rfl
  · rw [first, first']
    exact (Condition.ofTree_alike recased).map some

/-! ### Column lists -/

namespace Projection

variable {columns columns' entry entry' tree tree' : Tree}

/-- The word for distinct rows is looked for in any case. -/
theorem isDistinct_eq (h : columns.Recased columns') : isDistinct columns = isDistinct columns' := by
  unfold isDistinct
  rcases h.firstChild?_cases with ⟨none, none'⟩ | ⟨child, child', first, first', recased⟩
  · rw [none, none']
  · rw [first, first']
    exact recased.is_eq .distinct

/-- So the entries are those of the same branch. -/
theorem entries_recased (h : columns.Recased columns') :
    List.Forall₂ Tree.Recased (entries columns) (entries columns') := by
  unfold entries
  rcases h.firstChild?_cases with ⟨none, none'⟩ | ⟨child, child', first, first', recased⟩
  · rw [none, none']
    exact .nil
  · rw [first, first']
    dsimp only
    rw [recased.is_eq .distinct]
    split
    · exact recased.branches
    · exact h.branches

/-- The resolver takes a reference as it stands, so it has to be that of a leaf. -/
theorem reference_alike (h : entry.Recased entry')
    (leaf : ∀ child ∈ entry.firstChild?, child.isLeaf = true) :
    Alike Eq (reference entry) (reference entry') := by
  unfold reference
  rcases h.firstChild?_cases with ⟨none, none'⟩ | ⟨child, child', first, first', recased⟩
  · rw [none, none']
    exact .error rfl
  · rw [first, first', recased.eq_of_isLeaf (leaf child first)]
    exact .rfl

/-- **A column list** of leaves is resolved to the same headers and keys. -/
theorem ofTree_alike (h : tree.Recased tree') (select : tree.is .select = true)
    (leaves : tree.LeafReferences) : Alike Eq (ofTree tree) (ofTree tree') := by
  refine (Tree.required_alike h .select .columns).bind fun columns columns' ⟨listed, recased⟩ => ?_
  refine (Tree.required_alike h .select .sources).bind fun sources sources' ⟨_, named⟩ => ?_
  -- an entry goes with its recased entry, and has a leaf for its reference
  have leaf := leaves select columns (entries columns) listed (lists_iff.2 rfl)
  have each := entries_recased recased
  have headers : Alike Eq ((entries columns).mapM reference) ((entries columns').mapM reference) :=
    Alike.mapM_eq ((List.forall₂_and_left _ _).2 ⟨leaf, each⟩) fun _ _ ⟨leaf, recased⟩ =>
      reference_alike recased leaf
  have empty : (entries columns).isEmpty = (entries columns').isEmpty := by
    rw [Bool.eq_iff_iff, List.isEmpty_iff_length_eq_zero, List.isEmpty_iff_length_eq_zero,
      each.length_eq]
  -- of the sources only the number counts
  rw [empty, named.branches.length_eq]
  dsimp only
  split
  · exact .error rfl
  · exact headers.bind_eq fun headers => .rfl

end Projection

/-! ### Statements -/

namespace Statement

variable {tree tree' : Tree}

theorem createOfTree_alike (h : tree.Recased tree') :
    Alike Eq (createOfTree tree) (createOfTree tree') := by
  refine (Tree.tableName_alike h .create).bind_eq fun table => ?_
  refine (Tree.required_alike h .create .attributes).bind fun clause clause' ⟨_, recased⟩ => ?_
  have fields := Alike.mapM_eq recased.branches fun _ _ => Tree.declaredField_alike
  exact fields.bind_eq fun fields => .rfl

theorem insertOfTree_alike (h : tree.Recased tree') :
    Alike Eq (insertOfTree tree) (insertOfTree tree') := by
  refine (Tree.tableName_alike h .insert).bind_eq fun table => ?_
  -- the literals, behind attributes that are given or not
  have rest : ∀ attributes, Alike Eq
      (do
        let literals ← (← tree.required .insert .values).branches.mapM Tree.leafText
        .ok (Statement.insert table attributes literals))
      (do
        let literals ← (← tree'.required .insert .values).branches.mapM Tree.leafText
        .ok (Statement.insert table attributes literals)) := fun attributes =>
    (Tree.required_alike h .insert .values).bind fun _ _ ⟨_, recased⟩ =>
      (Tree.mapM_leafText_alike recased).bind_eq fun literals => .rfl
  rcases h.branch_cases .attributes with ⟨none, none'⟩ | ⟨clause, clause', found, found', recased⟩
  · rw [none, none']
    exact rest []
  · rw [found, found']
    exact (Tree.mapM_leafText_alike recased).bind_eq rest

/-- A query takes its texts from the same leaves. -/
theorem selectOfTree_alike (h : tree.Recased tree') (select : tree.is .select = true)
    (leaves : tree.LeafReferences) : Alike Eq (selectOfTree tree) (selectOfTree tree') := by
  refine (Projection.ofTree_alike h select leaves).bind_eq fun projection => ?_
  refine (Tree.required_alike h .select .columns).bind fun columns columns' ⟨_, recased⟩ => ?_
  refine (Tree.required_alike h .select .sources).bind fun sources sources' ⟨_, named⟩ => ?_
  have tables := Alike.mapM_eq named.branches fun _ _ => Tree.wrappedText_alike
  refine tables.bind_eq fun tables => ?_
  -- what is left depends on the number of tables, which is that of the texts taken
  rw [Projection.isDistinct_eq recased]
  dsimp only
  split
  · exact .error rfl
  · exact (Tree.selection_alike h).bind_eq fun condition => .rfl
  · exact (Tree.selection_alike h).bind_eq fun condition => .rfl

theorem deleteOfTree_alike (h : tree.Recased tree') :
    Alike Eq (deleteOfTree tree) (deleteOfTree tree') :=
  (Tree.tableName_alike h .delete).bind_eq fun _ =>
    (Tree.selection_alike h).bind_eq fun _ => .rfl

theorem dropOfTree_alike (h : tree.Recased tree') :
    Alike Eq (dropOfTree tree) (dropOfTree tree') :=
  (Tree.tableName_alike h .drop).bind_eq fun _ => .rfl

/-- **Recased trees are lowered alike.** -/
theorem ofTree_alike (h : tree.Recased tree') (leaves : tree.LeafReferences) :
    Alike Eq (ofTree tree) (ofTree tree') := by
  have word := h.is_eq
  -- both trees go the same of the five ways, or none
  rw [ofTree, ofTree, ← word .create, ← word .insert, ← word .select, ← word .delete, ← word .drop]
  split
  · exact createOfTree_alike h
  split
  · exact insertOfTree_alike h
  split
  · next select => exact selectOfTree_alike h select leaves
  split
  · exact deleteOfTree_alike h
  split
  · exact dropOfTree_alike h
  · exact .error rfl

/-- **Keywords have no letter case, and texts keep theirs.** Let the references of a query be leaves. To
change the letter case of any nodes that have branches then does not change the statement that the tree
is lowered to, nor the kind of error that it fails with. The tree is lowered to the statement that is
taken from it: its texts are those of leaves, and the leaves are the same in both trees. -/
theorem keyword_case_is_free (recased : tree.Recased tree') (leaves : tree.LeafReferences) :
    Alike Eq (ofTree tree) (ofTree tree') ∧ ∀ s, ofTree tree = .ok s ↔ s.TakenFrom tree :=
  ⟨ofTree_alike recased leaves, fun _ => ofTree_eq_ok_iff leaves⟩

/-- A query with the words in other letters, the connectives of its condition included. One of its texts
is a word of the language, and nothing comes of that. -/
theorem keyword_case_is_free_query :
    let comparison (left right : String) : Tree := .node "=" [.leaf left, .leaf right]
    let tree (select columns distinct column sources table selection and or : String) : Tree :=
      .node select
        [.node columns [.node distinct [.node column [.leaf "Pupil.Name"]]],
          .node sources [.node table [.leaf "Pupil"]],
          .node selection [.node and [comparison "Pupil.Id" "7",
            .node or [comparison "Name" "Ann", comparison "Name" "select"]]]]
    let upper := tree "SELECT" "COLUMNS" "DISTINCT" "COLUMN" "FROM" "TABLE" "WHERE" "AND" "OR"
    let mixed := tree "Select" "columns" "Distinct" "column" "from" "tAbLe" "where" "And" "oR"
    let condition : Condition :=
      .and (.equal "Id" "7") (.or (.equal "Name" "Ann") (.equal "Name" "select"))
    let query : Statement := .select ⟨⟨["Pupil.Name"], ["Name"]⟩, true, ["Pupil"], some condition⟩
    upper.Recased mixed ∧ upper.LeafReferences ∧ ofTree upper = .ok query ∧
      ofTree mixed = .ok query ∧ query.TakenFrom upper := by
  intro comparison tree upper mixed condition query
  have wrapper {kind kind' : String} (text : String) (letters : Text.sameLetters kind kind' = true) :
      Tree.Recased (.node kind [.leaf text]) (.node kind' [.leaf text]) :=
    .node (List.cons_ne_nil _ _) letters (.cons (.leaf text) .nil)
  have same (left right : String) :
      Tree.Recased (comparison left right) (comparison left right) :=
    .node (List.cons_ne_nil _ _) (by decide) (.cons (.leaf left) (.cons (.leaf right) .nil))
  -- down the two trees side by side
  have recased : upper.Recased mixed := by
    refine .node (List.cons_ne_nil _ _) (by decide) (.cons ?_ (.cons ?_ (.cons ?_ .nil)))
    · refine .node (List.cons_ne_nil _ _) (by decide) (.cons ?_ .nil)
      exact .node (List.cons_ne_nil _ _) (by decide) (.cons (wrapper _ (by decide)) .nil)
    · exact .node (List.cons_ne_nil _ _) (by decide) (.cons (wrapper _ (by decide)) .nil)
    · refine .node (List.cons_ne_nil _ _) (by decide) (.cons ?_ .nil)
      refine .node (List.cons_ne_nil _ _) (by decide) (.cons (same _ _) (.cons ?_ .nil))
      exact .node (List.cons_ne_nil _ _) (by decide) (.cons (same _ _) (.cons (same _ _) .nil))
  -- the one entry has its reference in a leaf
  have leaves : upper.LeafReferences := by
    intro _ columns list listed lists
    obtain rfl : _ = columns := Option.some.inj listed
    obtain rfl := Projection.lists_iff.1 lists
    decide
  have lowered : ofTree upper = .ok query := by decide +kernel
  obtain ⟨alike, taken⟩ := keyword_case_is_free recased leaves
  rw [lowered] at alike
  exact ⟨recased, leaves, lowered, alike.eq_ok, (taken query).1 lowered⟩

/-- A reference that is no leaf is the kind of a clause, and has the letter case of the clause. -/
example :
    let tree (clause : String) : Tree := .node "SELECT"
      [.node "COLUMNS" [.node "COLUMN" [.node clause [.leaf "x"]]],
        .node "FROM" [.node "TABLE" [.leaf "t"]]]
    ofTree (tree "name") ≠ ofTree (tree "Name") := by
  decide +kernel

end Statement

end RelEngine
