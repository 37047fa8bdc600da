import RelEngine.Schema
import RelEngine.Tree.Clause

/-!
# Column lists

The column list of a query is resolved into a `Projection`: the headers are the references as they
are written, the keys are what values are fetched by. With one source the part behind the point of a
reference is the key, since rows of a single table store plain names; with several sources the whole
reference is.

A `DISTINCT` node at the head of the list is looked through. A first header `*` asks for all
columns.
-/

namespace RelEngine

/-- **A resolved column list**: headers as written and keys to fetch by. -/
structure Projection where
  headers : List String
  keys : List String
deriving DecidableEq, Repr

namespace Projection

/-- The reference that stands for all columns. -/
def wildcard : String := "*"

/-- Whether a list of references asks for all columns. -/
def isWildcard (references : List String) : Bool :=
  match references with
  | first :: _ => first == wildcard
  | [] => false

/-- Whether a column list is headed by `DISTINCT`. -/
def isDistinct (columns : Tree) : Bool :=
  match columns.firstChild? with
  | some first => first.is .distinct
  | none => false

/-- The entries of a column list, behind a leading `DISTINCT`. -/
def entries (columns : Tree) : List Tree :=
  match columns.firstChild? with
  | some first => if first.is .distinct then first.branches else columns.branches
  | none => []

/-- The key of a reference: its column part with a single source, the whole reference otherwise. -/
def key (single : Bool) (reference : String) : String :=
  match Text.splitAtFirst referencePoint reference with
  | some (_, column) => if single then column else reference
  | none => reference

/-- The reference of one list entry: the text of its first child, with at most one point. -/
def reference (entry : Tree) : Except Error String :=
  match entry.firstChild? with
  | none => .error (.malformed (.unnamedColumn entry.kind))
  | some child =>
    if child.kind.toList.count referencePoint ≤ 1 then .ok child.kind
    else .error (.malformed (.tooManyParts child.kind))

/-- **The projection of a query tree.** -/
def ofTree (tree : Tree) : Except Error Projection := do
  let columns ← tree.required .select .columns
  let sources ← tree.required .select .sources
  if (entries columns).isEmpty then .error (.malformed .noColumns)
  let headers ← (entries columns).mapM reference
  .ok ⟨headers, headers.map (key (sources.branches.length == 1))⟩

end Projection

end RelEngine
