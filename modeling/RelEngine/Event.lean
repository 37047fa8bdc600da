import RelEngine.Error

/-!
# Events

What happens while statements run is recorded as a sequence of events. `Event.level` ranks them and
`Event.message` words them; the transfers among them are what the disk counts.
-/

namespace RelEngine

/-- **How much an event matters.** -/
inductive Level where
  | trace | debug | info | warning
deriving DecidableEq, Repr

/-- The name of a level. -/
def Level.name : Level → String
  | trace => "TRACE"
  | debug => "DEBUG"
  | info => "INFO"
  | warning => "WARN"

/-- The direction of a transfer of blocks. -/
inductive Direction where
  | read | write
deriving DecidableEq, Repr

/-- The name of a direction. -/
def Direction.name : Direction → String
  | read => "read"
  | write => "write"

/-- **What happens while statements run.** -/
inductive Event where
  | lowering (tree : Tree)
  | executing (statement : Keyword) (tree : Tree)
  | transferred (direction : Direction) (blocks : Nat)
  | registered (table : String) (fields : Nat)
  | created (table : String)
  | dropping (table : String)
  | dropped (table : String) (rows : Nat)
  | inserted (table : String)
  | removed (table : String) (rows : Nat)
  | deleted (rows : Nat)
  | selected (tables : List String) (rows : Nat)
  | reportLost (error : Error)
  | batchLine (number : Nat) (text : String)
  | lineFailed (number : Nat) (error : Error)
deriving DecidableEq, Repr

namespace Event

/-- The level of an event. -/
def level : Event → Level
  | transferred .. => .trace
  | created .. | dropped .. | deleted .. => .info
  | reportLost .. | lineFailed .. => .warning
  | _ => .debug

/-- The wording of an event. -/
def message : Event → String
  | lowering tree => s!"lowering {tree.toText}"
  | executing statement tree => s!"executing {statement.text} from {tree.toText}"
  | transferred direction blocks => s!"disk {direction.name} {blocks} block(s)"
  | registered table fields => s!"catalog: register '{table}' with {fields} field(s)"
  | created table => s!"Table '{table}' created"
  | dropping table => s!"catalog: drop '{table}'"
  | dropped table rows => s!"Table '{table}' dropped ({rows} row(s))"
  | inserted table => s!"Row inserted into '{table}'"
  | removed table rows => s!"{rows} row(s) deleted from '{table}'"
  | deleted rows => s!"{rows} row(s) deleted"
  | selected tables rows => s!"SELECT over {Text.quotedList tables} produced {rows} row(s)"
  | reportLost error => s!"timing report not written: {error.message}"
  | batchLine number text => s!"batch line {number}: {text}"
  | lineFailed number error => s!"line {number}: {error.message}"

/-- The blocks that an event transfers. -/
def blocks : Event → Option Nat
  | transferred _ n => some n
  | _ => none

end Event

end RelEngine
