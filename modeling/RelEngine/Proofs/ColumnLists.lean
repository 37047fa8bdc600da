import RelEngine.Proofs.FirstOccurrences
import RelEngine.Proofs.Lowering

/-!
# Column lists

A column list is looked at in two places. The resolver goes through its entries and makes headers and
keys of them, and it looks through a `DISTINCT` node at the head. The lowering looks at that head once
more, for the flag. Here the resolver is described without its steps, by what has to be there for it to
succeed (`Projection.exists_ofTree_iff`) and by what it makes (`Projection.ofTree_eq_ok_iff`).

The two looks go together: the resolver makes the same of a list and of the list behind a `DISTINCT`
node, and what the lowering makes of them differs in the flag (`Statement.selectOfTree_apartInFlag`).
The list is the one that counts, that of the first `COLUMNS` branch. To put another node into its
place changes no other branch that is looked up (`Tree.branch_replace`).

* `Tree.Lists`, `Projection.FetchedBy` — the entries of a list, and the keys of headers;
* `Projection.resolves_and_unwraps` — when a list is resolved and to what, and the two ways to write it.
-/

namespace RelEngine

/-! ### Entries, references and keys -/

/-- **The entries of a column list**: the branches of the node, or those of a `DISTINCT` node that comes
first among them. -/
inductive Tree.Lists : Tree → List Tree → Prop
  | plain {columns : Tree} (bare : ∀ first ∈ columns.firstChild?, first.is .distinct = false) :
      Lists columns columns.branches
  | distinct {columns first : Tree} (head : columns.firstChild? = some first)
      (spelled : first.is .distinct = true) : Lists columns first.branches

/-- **The reference of an entry** is the text of its first child, and has one point at most. -/
def Tree.RefersBy (entry : Tree) (header : String) : Prop :=
  ∃ child, entry.firstChild? = some child ∧ child.kind = header ∧
    header.toList.count referencePoint ≤ 1

/-- **A query tree with a list**: its entries, of which there are some, and how many sources there are.
The first `COLUMNS` branch counts, and the first `FROM` branch. -/
structure Tree.HasList (tree : Tree) (list : List Tree) (sources : Nat) : Prop where
  columns : ∃ clause, tree.branch .columns = some clause ∧ clause.Lists list
  sources : ∃ clause, tree.branch .sources = some clause ∧ clause.branches.length = sources
  nonempty : list ≠ []

namespace Projection

/-- **What a header is fetched by.** With a single source it is what stands behind the point, if the
header has one, and otherwise it is the header. -/
inductive FetchedBy (single : Prop) : String → String → Prop
  | column {table column : String} (alone : single) (first : referencePoint ∉ table.toList) :
      FetchedBy single (table ++ "." ++ column) column
  | whole {header : String} (bare : single → referencePoint ∉ header.toList) :
      FetchedBy single header header

/-- The entries are the branches, or those of the word for distinct rows if it comes first. -/
theorem lists_iff {columns : Tree} {list : List Tree} :
    columns.Lists list ↔ entries columns = list := by
  constructor
  · intro h
    unfold entries
    cases h with
    | plain bare =>
      cases first : columns.firstChild? with
      | none => exact (List.head?_eq_none_iff.1 first).symm
      | some child => exact if_neg (by simp [bare child first])
    | distinct head spelled =>
      rw [head]
      exact if_pos spelled
  · -- what the resolver takes is one of the two, as the first child is the distinct wrapper or not
    rintro rfl
    unfold entries
    cases first : columns.firstChild? with
    | none =>
      have empty : columns.branches = [] := List.head?_eq_none_iff.1 first
      have plain : columns.Lists columns.branches := .plain (by simp [first])
      rwa [empty] at plain
    | some child =>
      dsimp only
      split
      · next spelled => exact .distinct first spelled
      · next bare => exact .plain (by simpa [first] using bare)

theorem reference_eq_ok_iff {entry : Tree} {header : String} :
    reference entry = .ok header ↔ entry.RefersBy header := by
  unfold reference Tree.RefersBy
  cases first : entry.firstChild? with
  | none => simp
  | some child =>
    dsimp only
    constructor
    · intro read
      split at read
      · next short =>
        obtain rfl := Except.ok.inj read
        exact ⟨child, rfl, rfl, short⟩
      · cases read
    · rintro ⟨child', same, rfl, short⟩
      obtain rfl := Option.some.inj same
      exact if_pos short

/-- **The key of a header** is what stands behind its point when there is one source, and otherwise
the header itself. -/
theorem key_eq_iff {single : Bool} {alone : Prop} (counted : single = true ↔ alone)
    {header name : String} : key single header = name ↔ FetchedBy alone header name := by
  constructor
  · rintro rfl
    by_cases point : referencePoint ∈ header.toList
    · obtain ⟨⟨table, column⟩, cut⟩ := Option.ne_none_iff_exists'.1
        fun none => Text.splitAtFirst_eq_none_iff.1 none point
      obtain ⟨first, rfl⟩ := Schema.eq_of_splitAtFirst cut
      rw [key_point first]
      -- the part before the point goes if the source is alone
      by_cases one : single = true
      · rw [if_pos one]
        exact .column (counted.1 one) first
      · rw [if_neg one]
        exact .whole fun alone => absurd (counted.2 alone) one
    · rw [key_plain point]
      exact .whole fun _ => point
  · intro fetched
    cases fetched with
    | column alone first => rw [key_point first, if_pos (counted.2 alone)]
    | whole bare =>
      unfold key
      split
      · next table column cut =>
        -- there is a point, so there are several sources
        have several : ¬ single = true := fun one => by
          rw [Text.splitAtFirst_eq_none_iff.2 (bare (counted.1 one))] at cut
          cases cut
        exact if_neg several
      · rfl

/-- The keys beside some headers, from as many sources as are counted. -/
theorem forall₂_fetchedBy_iff {sources : Nat} {headers keys : List String} :
    List.Forall₂ (FetchedBy (sources = 1)) headers keys ↔ headers.map (key (sources == 1)) = keys := by
  rw [← List.forall₂_eq_eq_eq, List.forall₂_map_left_iff]
  have each : ∀ header name, FetchedBy (sources = 1) header name ↔ key (sources == 1) header = name :=
    fun _ _ => (key_eq_iff beq_iff_eq).symm
  exact ⟨.imp fun _ _ => (each _ _).1, .imp fun _ _ => (each _ _).2⟩

end Projection

/-- A required clause is the first branch with its word. -/
theorem Tree.required_eq_ok_iff {t b : Tree} {statement clause : Keyword} :
    t.required statement clause = .ok b ↔ t.branch clause = some b := by
  unfold Tree.required
  cases t.branch clause <;> simp

namespace Projection

/-! ### Resolved lists -/

variable {tree : Tree}

/-- **What a list is resolved to**, and from what. -/
theorem ofTree_eq_ok_iff {p : Projection} :
    ofTree tree = .ok p ↔ ∃ list sources, tree.HasList list sources ∧
      List.Forall₂ Tree.RefersBy list p.headers ∧
      List.Forall₂ (FetchedBy (sources = 1)) p.headers p.keys := by
  constructor
  · intro h
    -- the steps of the resolver give the three relations
    obtain ⟨columns, listed, h⟩ := bind_eq_ok_iff.1 h
    obtain ⟨sources, named, h⟩ := bind_eq_ok_iff.1 h
    dsimp only at h
    split at h
    · cases h
    next nonempty =>
    obtain ⟨headers, read, h⟩ := bind_eq_ok_iff.1 h
    obtain rfl := Except.ok.inj h
    refine ⟨entries columns, sources.branches.length, ⟨?_, ?_, by simpa using nonempty⟩, ?_, ?_⟩
    · exact ⟨columns, Tree.required_eq_ok_iff.1 listed, lists_iff.2 rfl⟩
    · exact ⟨sources, Tree.required_eq_ok_iff.1 named, rfl⟩
    · exact (mapM_eq_ok_iff.1 read).imp fun _ _ => reference_eq_ok_iff.1
    · exact forall₂_fetchedBy_iff.2 rfl
  · rintro ⟨list, count, ⟨⟨columns, listed, lists⟩, ⟨sources, named, rfl⟩, nonempty⟩, refers, fetched⟩
    -- and the relations make each step succeed
    obtain ⟨headers, keys⟩ := p
    obtain rfl := lists_iff.1 lists
    obtain rfl : headers.map _ = keys := forall₂_fetchedBy_iff.1 fetched
    have read : (entries columns).mapM reference = .ok headers :=
      mapM_eq_ok_iff.2 (refers.imp fun _ _ => reference_eq_ok_iff.2)
    rw [ofTree, Tree.required_eq_ok_iff.2 listed, ok_bind, Tree.required_eq_ok_iff.2 named, ok_bind,
      if_neg (by simpa using nonempty), read]
    rfl

/-- **When a list is resolved**: every entry has to have its reference. -/
theorem exists_ofTree_iff :
    (∃ p, ofTree tree = .ok p) ↔ ∃ list sources, tree.HasList list sources ∧
      ∀ entry ∈ list, ∃ header, entry.RefersBy header := by
  constructor
  · rintro ⟨p, h⟩
    obtain ⟨list, sources, has, refers, -⟩ := ofTree_eq_ok_iff.1 h
    refine ⟨list, sources, has, fun entry member => ?_⟩
    obtain ⟨i, there⟩ := List.mem_iff_getElem?.1 member
    obtain ⟨header, -, refers⟩ := exists_getElem?_of_forall₂ refers there
    exact ⟨header, refers⟩
  · rintro ⟨list, sources, has, each⟩
    obtain ⟨headers, -, refers⟩ := exists_mapM_forall₂ (f := reference) fun entry member =>
      (each entry member).imp fun header refers => ⟨reference_eq_ok_iff.2 refers, refers⟩
    -- the keys are there with the headers
    refine ⟨⟨headers, headers.map (key (sources == 1))⟩, ?_⟩
    exact ofTree_eq_ok_iff.2 ⟨list, sources, has, refers, forall₂_fetchedBy_iff.2 rfl⟩

end Projection

/-! ### Two ways to write a list -/

namespace Tree

variable {kind : String} {before after : List Tree} {b b' : Tree} {k : Keyword}

/-- The first branch with a word is the clause, whatever stands behind it. -/
theorem branch_of_first (others : ∀ a ∈ before, a.is k = false) (spelled : b.is k = true) :
    (node kind (before ++ b :: after)).branch k = some b := by
  have skipped : before.find? (·.is k) = none := by simpa using others
  rw [branch, branches_node, List.find?_append, skipped, Option.none_or, List.find?_cons, spelled]

/-- A branch that does not spell a keyword can be another one for it. -/
theorem branch_replace (other : b.is k = false) (other' : b'.is k = false) :
    (node kind (before ++ b :: after)).branch k = (node kind (before ++ b' :: after)).branch k := by
  rw [branch, branch, branches_node, branches_node, List.find?_append, List.find?_append,
    List.find?_cons, List.find?_cons, other, other']

end Tree

namespace Statement

/-- **One error or one query**, but for the flag that asks for distinct rows. -/
def ApartInFlag (x y : Except Error Statement) : Prop :=
  (∃ err, x = .error err ∧ y = .error err) ∨
    ∃ q : Query, q.distinct = false ∧ x = .ok (.select q) ∧ y = .ok (.select q.distinctly)

theorem ApartInFlag.bind {α : Type} {f g : α → Except Error Statement} (x : Except Error α)
    (each : ∀ a, ApartInFlag (f a) (g a)) : ApartInFlag (x >>= f) (x >>= g) := by
  cases x with
  | error err => exact .inl ⟨err, rfl, rfl⟩
  | ok a => exact each a

variable {bare wrapped columns columns' : Tree}

/-- **Two query trees with one list**, the one without `DISTINCT` and the other behind it, and with the
same other clauses. -/
theorem selectOfTree_apartInFlag (listed : bare.branch .columns = some columns)
    (listed' : wrapped.branch .columns = some columns')
    (same : Projection.entries columns = Projection.entries columns')
    (plain : Projection.isDistinct columns = false)
    (distinct : Projection.isDistinct columns' = true)
    (others : ∀ k, k ≠ .columns → bare.branch k = wrapped.branch k) :
    ApartInFlag (selectOfTree bare) (selectOfTree wrapped) := by
  have required : bare.required .select .columns = .ok columns := Tree.required_eq_ok_iff.2 listed
  have required' : wrapped.required .select .columns = .ok columns' :=
    Tree.required_eq_ok_iff.2 listed'
  have sources : bare.required .select .sources = wrapped.required .select .sources := by
    rw [Tree.required, Tree.required, others .sources (by decide)]
  have selection : bare.selection = wrapped.selection := by
    rw [Tree.selection, Tree.selection, others .selection (by decide)]
  have projected : Projection.ofTree bare = Projection.ofTree wrapped := by
    rw [Projection.ofTree, Projection.ofTree, required, required', ok_bind, ok_bind, sources, same]
  rw [selectOfTree, selectOfTree, projected, required, required', sources, selection]
  refine .bind _ fun projection => ?_
  rw [ok_bind, ok_bind]
  refine .bind _ fun clause => .bind _ fun tables => ?_
  rw [plain, distinct]
  -- the flag is all that is left of the two lists
  dsimp only
  split
  · exact .inl ⟨_, rfl, rfl⟩
  · exact .bind _ fun condition => .inr ⟨_, rfl, rfl, rfl⟩
  · exact .bind _ fun condition => .inr ⟨_, rfl, rfl, rfl⟩

/-- The way of lowering that a word opens. Most words open none. -/
def lowerAs (tree : Tree) : Keyword → Except Error Statement
  | .create => createOfTree tree
  | .insert => insertOfTree tree
  | .select => selectOfTree tree
  | .delete => deleteOfTree tree
  | .drop => dropOfTree tree
  | _ => .error (.unknownStatement tree.kind)

/-- A tree whose word is known is lowered as a statement of that kind. -/
theorem ofTree_of_is {tree : Tree} {k : Keyword} (h : tree.is k = true) :
    ofTree tree = lowerAs tree k := by
  have other (k' : Keyword) : tree.is k' = decide (k = k') := by
    rw [Tree.is_of_is h, Keyword.sameLetters_text]
  rw [ofTree, other .create, other .insert, other .select, other .delete, other .drop]
  cases k <;> rfl

end Statement

/-- **Lists are resolved by their entries, and unwrapped.** The list of a query tree is resolved exactly
if the two clauses are there, the list has entries, and each entry has a first child with one point at
most in its text. The headers are then these texts, and the keys are what each of them is fetched by.

To put a `DISTINCT` node around a list that is not headed by one asks for distinct rows and changes
nothing else: the query tree is lowered to the same query but for the flag, or fails with the same
error. -/
theorem Projection.resolves_and_unwraps :
    (∀ tree : Tree,
      ((∃ p, ofTree tree = .ok p) ↔ ∃ list sources, tree.HasList list sources ∧
        ∀ entry ∈ list, ∃ header, entry.RefersBy header) ∧
      ∀ p, ofTree tree = .ok p ↔ ∃ list sources, tree.HasList list sources ∧
        List.Forall₂ Tree.RefersBy list p.headers ∧
        List.Forall₂ (FetchedBy (sources = 1)) p.headers p.keys) ∧
    ∀ (kind word head : String) (before list after : List Tree),
      let tree (entries : List Tree) : Tree := .node kind (before ++ .node word entries :: after)
      (tree list).is .select = true → (Tree.node word list).is .columns = true →
      (Tree.node head list).is .distinct = true → (∀ b ∈ before, b.is .columns = false) →
      (∀ first ∈ list.head?, first.is .distinct = false) →
      Statement.ApartInFlag (Statement.ofTree (tree list))
        (Statement.ofTree (tree [.node head list])) := by
  refine ⟨fun tree => ⟨exists_ofTree_iff, fun p => ofTree_eq_ok_iff⟩, ?_⟩
  intro kind word head before list after tree select columns distinct first bare
  have select' : (tree [.node head list]).is .select = true := select
  have columns' : (Tree.node word [.node head list]).is .columns = true := columns
  rw [Statement.ofTree_of_is select, Statement.ofTree_of_is select', Statement.lowerAs,
    Statement.lowerAs]
  -- both trees list the same entries, and only the second is marked
  have plainList : (Tree.node word list).Lists list := .plain bare
  have wrappedList : (Tree.node word [.node head list]).Lists list := .distinct rfl distinct
  apply Statement.selectOfTree_apartInFlag (Tree.branch_of_first first columns)
    (Tree.branch_of_first first columns')
  · rw [lists_iff.1 plainList, lists_iff.1 wrappedList]
  · unfold isDistinct
    split
    · next child there => exact bare child there
    · rfl
  · exact distinct
  · -- the list is no other clause, with or without the node in it
    intro k other
    apply Tree.branch_replace
    · rw [Tree.is_of_is columns, Keyword.sameLetters_text]
      exact decide_eq_false other.symm
    · rw [Tree.is_of_is columns', Keyword.sameLetters_text]
      exact decide_eq_false other.symm

/-- A list between a branch that is passed over and a second list, with keywords in any letter case. It
has a reference with the name of the single source in front and one with another child behind it. -/
theorem Projection.resolves_and_unwraps_two :
    let list : List Tree := [.node "COLUMN" [.leaf "t.a"], .node "" [.leaf "b", .leaf "c"]]
    let before : List Tree := [.node "note" [.leaf "COLUMNS"]]
    let after : List Tree := [.node "COLUMNS" [], .node "from" [.node "TABLE" [.leaf "t"]]]
    let tree (entries : List Tree) : Tree :=
      .node "select" (before ++ .node "Columns" entries :: after)
    let p : Projection := ⟨["t.a", "b"], ["a", "b"]⟩
    (tree list).HasList list 1 ∧ ofTree (tree list) = .ok p ∧
      Statement.ApartInFlag (Statement.ofTree (tree list))
        (Statement.ofTree (tree [.node "distinct" list])) := by
  intro list before after tree p
  have bare : ∀ first ∈ list.head?, first.is .distinct = false := by decide
  -- the node before the list is no clause, although its leaf is called like one
  have has : (tree list).HasList list 1 := by
    refine ⟨⟨.node "Columns" list, by decide, .plain bare⟩, ?_, by simp [list]⟩
    exact ⟨.node "from" [.node "TABLE" [.leaf "t"]], by decide, rfl⟩
  have refers : List.Forall₂ Tree.RefersBy list p.headers :=
    .cons ⟨.leaf "t.a", rfl, rfl, by decide⟩ (.cons ⟨.leaf "b", rfl, rfl, by decide⟩ .nil)
  have fetched : List.Forall₂ (FetchedBy (1 = 1)) p.headers p.keys :=
    forall₂_fetchedBy_iff.2 (by decide +kernel)
  have resolved := ((resolves_and_unwraps.1 (tree list)).2 p).2 ⟨list, 1, has, refers, fetched⟩
  have apart := resolves_and_unwraps.2 "select" "Columns" "distinct" before list after (by decide)
    (by decide) (by decide) (by decide) bare
  exact ⟨has, resolved, apart⟩

end RelEngine
