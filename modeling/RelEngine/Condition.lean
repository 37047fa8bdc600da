import RelEngine.Row
import RelEngine.Tree.Clause

/-!
# Conditions

A condition compares operands and combines comparisons. An operand is a text: where it resolves to a
field of the row it denotes that row's value, printed; where it names no field it denotes itself.
The connectives evaluate from left to right and stop as soon as the left side decides.

A row of a single table stores plain column names, so references `table.column` to that table are
first stripped of their prefix (`Condition.unqualified`).
-/

namespace RelEngine

/-- **A condition on rows.** -/
inductive Condition where
  | equal (left right : String)
  | and (a b : Condition)
  | or (a b : Condition)
deriving DecidableEq, Repr

namespace Condition

/-- The condition that a tree spells: a node with exactly two branches, whose kind is a comparison
of leaves or a connective of conditions. -/
def ofTree : Tree → Except Error Condition
  | .node kind [a, b] =>
    let here : Tree := .node kind [a, b]
    if here.is .equality then do
      let left ← a.leafText
      let right ← b.leafText
      .ok (.equal left right)
    else if here.is .conjunction then do
      let left ← ofTree a
      let right ← ofTree b
      .ok (.and left right)
    else if here.is .disjunction then do
      let left ← ofTree a
      let right ← ofTree b
      .ok (.or left right)
    else .error (.malformed (.unknownCondition kind))
  | .node kind _ => .error (.malformed (.operandCount kind))

/-- The text behind `start`, if the text begins with it. -/
def behind (start text : List Char) : Option (List Char) :=
  if start <+: text then some (text.drop start.length) else none

/-- An operand without the prefix that names the table. -/
def unqualifiedOperand (table operand : String) : String :=
  match behind (table.toList ++ [referencePoint]) operand.toList with
  | some column => String.ofList column
  | none => operand

/-- The condition with every operand freed of the prefix that names the table. -/
def unqualified (table : String) : Condition → Condition
  | equal l r => .equal (unqualifiedOperand table l) (unqualifiedOperand table r)
  | and a b => .and (a.unqualified table) (b.unqualified table)
  | or a b => .or (a.unqualified table) (b.unqualified table)

/-- **What an operand denotes**: the printed value of the field it resolves to, or itself when it
names no field. -/
def denote (row : Row) (operand : String) : Except Error String :=
  match row.get operand with
  | .ok v => .ok v.print
  | .error (.columnNotFound _) => .ok operand
  | .error e => .error e

/-- **The truth of a condition on a row.** -/
def holds (row : Row) : Condition → Except Error Bool
  | equal l r => do
    let left ← denote row l
    let right ← denote row r
    .ok (left == right)
  | and a b => do
    if ← a.holds row then b.holds row else .ok false
  | or a b => do
    if ← a.holds row then .ok true else b.holds row

/-- The truth of an optional condition: without one every row qualifies. -/
def admits (condition : Option Condition) (row : Row) : Except Error Bool :=
  match condition with
  | some c => c.holds row
  | none => .ok true

end Condition

end RelEngine
