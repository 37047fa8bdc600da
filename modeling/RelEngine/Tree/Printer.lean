import RelEngine.Text.Blank
import RelEngine.Tree

/-!
# Printing statement trees

An inner node is printed as `(kind branch …)` with one space before each branch. A leaf is printed
as it is unless its text is awkward — empty, or holding white space, a parenthesis or a quote — in
which case it stands between double quotes, with a backslash before every quote and backslash. The
kind of an inner node is never quoted.
-/

namespace RelEngine.Tree

/-- Characters that end a bare word. -/
def isDelimiter (c : Char) : Bool :=
  Text.isBlank c || c == '(' || c == ')' || c == '"'

/-- Whether a leaf's text cannot stand as a bare word. -/
def needsQuotes (text : List Char) : Bool :=
  text.isEmpty || text.any isDelimiter

/-- A backslash before every quote and every backslash. -/
def escape : List Char → List Char
  | [] => []
  | c :: rest => if c = '\\' ∨ c = '"' then '\\' :: c :: escape rest else c :: escape rest

/-- The printed form of a leaf. -/
def word (text : List Char) : List Char :=
  if needsQuotes text then '"' :: escape text ++ ['"'] else text

mutual

/-- The printed form of a tree. -/
def print : Tree → List Char
  | node k [] => word k.toList
  | node k (b :: bs) => '(' :: k.toList ++ printBranches (b :: bs) ++ [')']

/-- The printed form of branches, each behind a space. -/
def printBranches : List Tree → List Char
  | [] => []
  | b :: bs => ' ' :: print b ++ printBranches bs

end

/-- The printed form of a tree, as a string. -/
def toText (t : Tree) : String := String.ofList t.print

end RelEngine.Tree
