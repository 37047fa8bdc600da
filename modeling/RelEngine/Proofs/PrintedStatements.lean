import RelEngine.Engine
import RelEngine.Proofs.TreeRoundTrip

/-!
# Statements that are printed and read again

A statement is logged as the printed form of its tree. Read again, that form is to be the same
statement and do the same. Printing puts leaves in quotes where they need them and the kinds of
inner nodes never, so what has to be seen is which kinds come to be printed.

A kind is either looked at or not. Where the lowering asks for a clause, a statement or a condition,
it asks for a keyword, and a keyword is a bare word. The kinds that it does not look at are those of
the wrappers in the column list and among the sources and of branches that are passed over; for them
the reader takes any text in quotes. So the printed form is the same statement unless such a kind is
no bare word (`Tree.Worded`).

* `Tree.worded_iff_printable` — keywords need no care, only the other kinds do;
* `Engine.executeText_toText` — running the printed form of a tree is running the tree;
* `Engine.printed_statement_runs_alike` — a printed statement is the same statement and does the
  same;
* `Engine.printed_wrapper_reads_otherwise` — a wrapper whose kind is two words is printed as
  something else.
-/

namespace RelEngine

namespace Tree

/-- The printed form of a printable tree is one of its spellings, with nothing before and behind. -/
theorem spelledBy_toText {t : Tree} (h : t.Printable) : t.SpelledBy t.toText.toList := by
  have none : IsGap [] := by simp [IsGap]
  refine ⟨[], t.print, [], ?_, none, spells_print h [] (by simp [Bounds]), none⟩
  rw [toText, String.toList_ofList, List.nil_append, List.append_nil]

/-- **The nodes of a tree**: the tree itself and the nodes of its branches. -/
inductive Within : Tree → Tree → Prop
  | self (t : Tree) : Within t t
  | branch {t b : Tree} {kind : String} {branches : List Tree} (member : b ∈ branches)
      (inside : Within t b) : Within t (node kind branches)

/-- **Worded trees**: a kind that has branches below it and is no keyword is a bare word. -/
def Worded (tree : Tree) : Prop :=
  ∀ t : Tree, t.Within tree → t.branches ≠ [] → (∀ k, t.is k = false) →
    t.kind ≠ "" ∧ ∀ c ∈ t.kind.toList, Bare c

/-- Every node of a printable tree is printable. -/
theorem Printable.within {t tree : Tree} (h : tree.Printable) (inside : t.Within tree) :
    t.Printable := by
  -- downwards from the tree, whose branches are printable as it is
  induction inside with
  | self => exact h
  | branch member _ ih =>
    cases h with
    | node _ each => exact ih (each _ member)

/-- Keywords are bare words, so it is the other kinds only that keep a tree from being printable. -/
theorem worded_iff_printable {tree : Tree} : tree.Worded ↔ tree.Printable := by
  constructor
  · intro worded
    induction tree with
    | node kind branches ih =>
      apply Printable.node
      · intro inner
        -- a kind is a keyword, which is a bare word, or it is worded by assumption
        by_cases spells : ∃ k, (node kind branches).is k = true
        · obtain ⟨k, spells⟩ := spells
          exact bare_of_is spells
        · have none : ∀ k, (node kind branches).is k = false := by simpa using spells
          exact worded _ (.self _) inner none
      · intro b member
        exact ih b member fun t inside => worded t (.branch member inside)
  · intro printable t inside inner _
    cases printable.within inside with
    | node word _ => exact word inner

end Tree

namespace Engine

variable {σ : Type} [Sink σ]

/-- Running the printed form of a tree is running the tree. -/
theorem executeText_toText {tree : Tree} (h : tree.Printable) (e : Engine) (elapsed : Nat)
    (out : σ) : e.executeText elapsed tree.toText out = e.execute elapsed tree out := by
  have read : Tree.ofText tree.toText = .ok tree :=
    Tree.read_of_spelledBy (Tree.spelledBy_toText h)
  rw [executeText, prepare, read]
  rfl

/-- **A printed statement is the same statement.** A text is accepted as a worded tree, and the tree
is lowered to a statement. Then the printed form of the tree is accepted too and lowered to that
statement, and run on any engine and with any sink it does what the text does. -/
theorem printed_statement_runs_alike {text : String} {tree : Tree} {s : Statement}
    (accepted : Tree.ofText text = .ok tree) (lowered : Statement.ofTree tree = .ok s)
    (worded : tree.Worded) :
    (∃ printed, Tree.ofText tree.toText = .ok printed ∧ Statement.ofTree printed = .ok s) ∧
      ∀ {σ : Type} [Sink σ] (e : Engine) (elapsed : Nat) (out : σ),
        e.executeText elapsed tree.toText out = e.executeText elapsed text out := by
  have printable := Tree.worded_iff_printable.1 worded
  constructor
  · exact ⟨tree, Tree.read_of_spelledBy (Tree.spelledBy_toText printable), lowered⟩
  · intro σ _ e elapsed out
    -- both texts are read as the one tree
    calc e.executeText elapsed tree.toText out
        = e.execute elapsed tree out := executeText_toText printable e elapsed out
      _ = e.executeText elapsed text out := by
        rw [executeText, prepare, accepted]
        rfl

/-- Wrappers of any kind, a branch that is passed over, and leaves that need quotes. -/
theorem printed_statement_runs_alike_quoted :
    let text := "(select (COLUMNS (c \"say \\\"hi\\\"\")) (From (my-table t)) (note (\"\" )))"
    let tree : Tree := .node "select" [.node "COLUMNS" [.node "c" [.leaf "say \"hi\""]],
      .node "From" [.node "my-table" [.leaf "t"]], .node "note" [.leaf ""]]
    let q : Query := ⟨⟨["say \"hi\""], ["say \"hi\""]⟩, false, ["t"], none⟩
    Tree.ofText text = .ok tree ∧ Statement.ofTree tree = .ok (.select q) ∧
      tree.toText = "(select (COLUMNS (c \"say \\\"hi\\\"\")) (From (my-table t)) (note \"\"))" ∧
      (∃ printed, Tree.ofText tree.toText = .ok printed ∧
        Statement.ofTree printed = .ok (.select q)) := by
  intro text tree q
  have accepted : Tree.ofText text = .ok tree := by decide +kernel
  have lowered : Statement.ofTree tree = .ok (.select q) := by decide +kernel
  -- the kinds are bare words, and the leaves may be anything
  have bare : ∀ kind ∈ ["select", "COLUMNS", "c", "From", "my-table", "note"],
      kind ≠ "" ∧ ∀ c ∈ kind.toList, Tree.Bare c := by
    simp [Tree.Bare, Text.isBlank]
  have leaf := Tree.printable_leaf
  have columns : Tree.Printable (.node "COLUMNS" [.node "c" [.leaf "say \"hi\""]]) :=
    .node (fun _ => bare _ (by simp)) (by
      simpa using Tree.Printable.node (fun _ => bare _ (by simp)) (by simp [leaf]))
  have sources : Tree.Printable (.node "From" [.node "my-table" [.leaf "t"]]) :=
    .node (fun _ => bare _ (by simp)) (by
      simpa using Tree.Printable.node (fun _ => bare _ (by simp)) (by simp [leaf]))
  have note : Tree.Printable (.node "note" [.leaf ""]) :=
    .node (fun _ => bare _ (by simp)) (by simp [leaf])
  have printable : tree.Printable :=
    .node (fun _ => bare _ (by simp)) (by simp [columns, sources, note])
  have worded := Tree.worded_iff_printable.2 printable
  exact ⟨accepted, lowered, by decide +kernel,
    (printed_statement_runs_alike accepted lowered worded).1⟩

/-- A wrapper whose kind is two words. The query is one over `t`, and its printed form is one over
`table`, which does not exist. -/
theorem printed_wrapper_reads_otherwise :
    let create : Tree := .node "CREATE" [.node "TABLE" [.leaf "t"],
      .node "ATTRIBUTES" [.node "ATTRIBUTE" [.leaf "a", .leaf "INT"]]]
    let e := ((ofSettings .standard).execute 0 create Transcript.unlimited).engine
    let text := "(SELECT (COLUMNS (COLUMN *)) (FROM (\"my table\" t)))"
    let columns : Tree := .node "COLUMNS" [.node "COLUMN" [.leaf "*"]]
    let tree : Tree := .node "SELECT" [columns, .node "FROM" [.node "my table" [.leaf "t"]]]
    let printed : Tree :=
      .node "SELECT" [columns, .node "FROM" [.node "my" [.leaf "table", .leaf "t"]]]
    let selects (table : String) : Statement := .select ⟨⟨["*"], ["*"]⟩, false, [table], none⟩
    Tree.ofText text = .ok tree ∧ Statement.ofTree tree = .ok (selects "t") ∧
      tree.toText = "(SELECT (COLUMNS (COLUMN *)) (FROM (my table t)))" ∧
      Tree.ofText tree.toText = .ok printed ∧ Statement.ofTree printed = .ok (selects "table") ∧
      selects "table" ≠ selects "t" ∧
      (e.executeText 0 text Transcript.unlimited).result = .ok () ∧
      (e.executeText 0 tree.toText Transcript.unlimited).result
        = .error (.tableNotFound "table") := by
  decide +kernel

end Engine

end RelEngine
