import RelEngine.Execution
import RelEngine.Output.Report
import RelEngine.Output.Sink

/-!
# The engine

The engine keeps a catalog, a disk that counts, a memory size and the layout of printed tables. A
statement is run in two steps. `Engine.perform` does all that the statement does to the engine; it
knows nothing of output. `Outcome.deliver` then puts the printed lines and the cost report into a
sink. The report follows every statement, failed ones included. The error of a statement counts for
more than a failure to write its report.

* `Engine.execute` runs a tree and `Engine.executeText` a text; a text that is no tree does nothing
  and is not reported on;
* `deliver_engine` — the sink has no part in what becomes of the engine.
-/

namespace RelEngine

/-- **The engine.** -/
structure Engine where
  catalog : Catalog
  disk : Disk
  memory : Memory
  renderer : Renderer

/-- **What running a statement leads to**, before anything is written. -/
structure Outcome where
  engine : Engine
  events : List Event
  /-- What the disk counters went up by. -/
  cost : Reading
  /-- The lines to print, or why the statement failed. -/
  result : Except Error (List String)

/-- **What a caller gets back**: the engine and the sink as they are now, the events, and whether
the statement succeeded. -/
structure Reply (σ : Type) where
  engine : Engine
  sink : σ
  events : List Event
  result : Except Error Unit

/-- The disk after the transfers among some events. -/
def Disk.after (d : Disk) (events : List Event) : Disk :=
  (events.filterMap Event.blocks).foldl Disk.transfer d

namespace Engine

/-- An engine without tables. -/
def ofSettings (s : Settings) : Engine :=
  { catalog := .empty
    disk := .ofLatency s.diskLatency
    memory := .ofFrames s.memoryBlocks
    renderer := .ofSettings s }

/-- What a statement tree does to the engine. -/
def perform (e : Engine) (tree : Tree) : Outcome :=
  let effect := match Statement.ofTree tree with
    | .error err => Effect.failed e.catalog [] err
    | .ok statement =>
      let effect := e.catalog.run e.memory e.renderer statement
      { effect with events := .executing statement.keyword tree :: effect.events }
  let disk := e.disk.after effect.events
  { engine := { e with catalog := effect.catalog, disk := disk }
    events := .lowering tree :: effect.events
    cost := disk.counters.since e.disk.counters
    result := effect.result }

/-- What a statement text does to the engine, if it is a tree. -/
def prepare (e : Engine) (text : String) : Except Error Outcome :=
  match Tree.ofText text with
  | .error fault => .error (.unreadable fault)
  | .ok tree => .ok (e.perform tree)

end Engine

namespace Outcome

variable {σ : Type} [Sink σ]

/-- **The printed lines and then the report go into the sink.** -/
def deliver (o : Outcome) (elapsed : Nat) (out : σ) : Reply σ :=
  let printed := Sink.print out o.result
  -- the report is attempted whatever became of the lines
  let reported := Sink.print printed.1 (.ok (Cost.lines ⟨elapsed, o.cost⟩))
  match reported.2, printed.2 with
  | .ok _, result => ⟨o.engine, reported.1, o.events, result⟩
  | .error e, .ok _ => ⟨o.engine, reported.1, o.events, .error e⟩
  | .error e, .error first => ⟨o.engine, reported.1, o.events ++ [.reportLost e], .error first⟩

/-- The sink has no part in what becomes of the engine. -/
@[simp] theorem deliver_engine (o : Outcome) (elapsed : Nat) (out : σ) :
    (o.deliver elapsed out).engine = o.engine := by
  unfold deliver
  dsimp only
  split <;> rfl

end Outcome

namespace Engine

variable {σ : Type} [Sink σ]

/-- **Runs one statement tree**, which is reported to have taken `elapsed` milliseconds. -/
def execute (e : Engine) (elapsed : Nat) (tree : Tree) (out : σ) : Reply σ :=
  (e.perform tree).deliver elapsed out

/-- The reply to a prepared text. -/
def answer (e : Engine) (elapsed : Nat) (prepared : Except Error Outcome) (out : σ) : Reply σ :=
  match prepared with
  | .error err => ⟨e, out, [], .error err⟩
  | .ok outcome => outcome.deliver elapsed out

/-- **Runs the one statement that a text spells.** -/
def executeText (e : Engine) (elapsed : Nat) (text : String) (out : σ) : Reply σ :=
  e.answer elapsed (e.prepare text) out

end Engine

end RelEngine
