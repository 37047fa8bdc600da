import RelEngine.Error

/-!
# Clauses of a statement tree

What the statement language asks of a tree's parts: a text stands in a leaf, a wrapper such as
`(TABLE t)` holds a text in its first branch, and some clauses have to be there. Each question
answers with the part or with the reason why the tree is malformed.
-/

namespace RelEngine.Tree

/-- The text of a leaf. -/
def leafText (t : Tree) : Except Error String :=
  if t.isLeaf then .ok t.kind else .error (.malformed (.notText t))

/-- The text of the first leaf under a wrapper. -/
def wrappedText (t : Tree) : Except Error String :=
  match t.firstChild? with
  | some child => child.leafText
  | none => .error (.malformed (.noValue t.kind))

/-- The first branch of a kind that the statement cannot do without. -/
def required (t : Tree) (statement clause : Keyword) : Except Error Tree :=
  match t.branch clause with
  | some branch => .ok branch
  | none => .error (.malformed (.missing statement clause))

end RelEngine.Tree
