import RelEngine.Text.Case

/-!
# Statement trees

A statement arrives as a tree. An inner node names a clause (`SELECT`, `COLUMNS`, `FROM`, …) and a
leaf carries user text: a table or column name, a literal, an operand. A node without branches *is*
a leaf; nothing else tells the two apart.

Clauses are found by `Keyword`: `Tree.is` compares a node's kind with the keyword's spelling without
regard to the case of ASCII letters, and `Tree.branch` finds the first child of a kind.
-/

namespace RelEngine

/-- **A statement tree**: a kind and the branches below it, in order. -/
inductive Tree where
  | node (kind : String) (branches : List Tree)
deriving Repr, Inhabited

namespace Tree

/-- The clause name of an inner node, the text of a leaf. -/
def kind : Tree → String
  | node k _ => k

/-- The children, in order. -/
def branches : Tree → List Tree
  | node _ bs => bs

/-- A node without branches. -/
def leaf (text : String) : Tree := node text []

@[simp] theorem kind_node (k : String) (bs : List Tree) : (node k bs).kind = k := rfl
@[simp] theorem branches_node (k : String) (bs : List Tree) : (node k bs).branches = bs := rfl

/-- Whether a node carries text rather than a clause. -/
def isLeaf (t : Tree) : Bool := t.branches.isEmpty

/-- The first branch. -/
def firstChild? (t : Tree) : Option Tree := t.branches.head?

/-- **Induction on trees**: what holds of a node whenever it holds of its branches holds of all
trees. -/
@[elab_as_elim, induction_eliminator]
theorem induction {motive : Tree → Prop}
    (node : ∀ kind branches, (∀ b ∈ branches, motive b) → motive (.node kind branches)) :
    ∀ t, motive t :=
  @Tree.rec motive (fun branches => ∀ b ∈ branches, motive b) node
    (fun _ h => absurd h List.not_mem_nil)
    (fun _ _ first rest _ h => by
      rcases List.mem_cons.1 h with rfl | h
      · exact first
      · exact rest _ h)

mutual

/-- Equality of trees is decidable. -/
def decEq : (s t : Tree) → Decidable (s = t)
  | node k bs, node l cs =>
    if h : k = l then
      match decEqBranches bs cs with
      | isTrue e => isTrue (by rw [h, e])
      | isFalse e => isFalse (by simp [e])
    else isFalse (by simp [h])

/-- Equality of lists of trees is decidable. -/
def decEqBranches : (bs cs : List Tree) → Decidable (bs = cs)
  | [], [] => isTrue rfl
  | [], _ :: _ => isFalse (by simp)
  | _ :: _, [] => isFalse (by simp)
  | b :: bs, c :: cs =>
    match decEq b c, decEqBranches bs cs with
    | isTrue e, isTrue es => isTrue (by rw [e, es])
    | isFalse e, _ => isFalse (by simp [e])
    | _, isFalse es => isFalse (by simp [es])

end

instance : DecidableEq Tree := decEq

end Tree

/-! ### Keywords -/

/-- **The words of the statement language.** -/
inductive Keyword where
  | create | insert | select | delete | drop
  | table | attributes | attribute | values
  | columns | distinct | sources | selection
  | conjunction | disjunction | equality
deriving DecidableEq, Repr

/-- The spelling of a keyword. -/
def Keyword.text : Keyword → String
  | .create => "CREATE"
  | .insert => "INSERT"
  | .select => "SELECT"
  | .delete => "DELETE"
  | .drop => "DROP"
  | .table => "TABLE"
  | .attributes => "ATTRIBUTES"
  | .attribute => "ATTRIBUTE"
  | .values => "VALUES"
  | .columns => "COLUMNS"
  | .distinct => "DISTINCT"
  | .sources => "FROM"
  | .selection => "WHERE"
  | .conjunction => "AND"
  | .disjunction => "OR"
  | .equality => "="

/-- No two keywords are spelled with the same letters. -/
theorem Keyword.sameLetters_text (k k' : Keyword) :
    Text.sameLetters k.text k'.text = decide (k = k') := by
  cases k <;> cases k' <;> decide

namespace Tree

/-- Whether the node's kind spells the keyword, in any letter case. -/
def is (t : Tree) (k : Keyword) : Bool := Text.sameLetters t.kind k.text

/-- A node that spells one keyword spells another if the keywords do not differ in their letters. -/
theorem is_of_is {t : Tree} {k : Keyword} (h : t.is k = true) (k' : Keyword) :
    t.is k' = Text.sameLetters k.text k'.text := by
  have same : Text.lower t.kind = Text.lower k.text := Text.sameLetters_iff.1 h
  rw [is, Text.sameLetters, same]
  rfl

/-- A keyword as it is written is that keyword and no other. -/
theorem is_keyword (k k' : Keyword) (branches : List Tree) :
    (node k.text branches).is k' = decide (k = k') :=
  k.sameLetters_text k'

/-- The first branch whose kind spells the keyword. -/
def branch (t : Tree) (k : Keyword) : Option Tree := t.branches.find? (·.is k)

theorem branch_cons (kind : String) (b : Tree) (branches : List Tree) (k : Keyword) :
    (node kind (b :: branches)).branch k
      = if b.is k then some b else (node kind branches).branch k := by
  rw [branch, branches_node, List.find?_cons]
  cases b.is k <;> rfl

end Tree

end RelEngine
