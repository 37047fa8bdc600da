import RelEngine.Engine
import RelEngine.Text.Blank

/-!
# Batches

A batch is a byte sequence with one statement to a line. White space around a line does not matter;
empty lines and lines that begin with `--` are passed over. A failing statement is counted and the
run goes on. A line that is not well-formed UTF-8 ends the run with an error, which undoes nothing.
-/

namespace RelEngine

/-- **What a batch has come to.** -/
structure Summary where
  executed : Nat
  failed : Nat
deriving DecidableEq, Repr

namespace Batch

/-- Lines that hold no statement, after trimming. -/
def isSkipped (line : String) : Bool :=
  match line.toList with
  | [] => true
  | '-' :: '-' :: _ => true
  | _ => false

/-- **A batch under way.** -/
structure Progress (σ : Type) where
  engine : Engine
  sink : σ
  events : List Event
  summary : Summary

/-- **How a batch ended**: where it had got to, and whether all lines could be read. -/
structure Report (σ : Type) where
  progress : Progress σ
  result : Except Error Unit

variable {σ : Type} [Sink σ]

/-- The batch after one more statement, given what preparing its text has led to. -/
def Progress.record (p : Progress σ) (number elapsed : Nat) (text : String)
    (prepared : Except Error Outcome) : Progress σ :=
  let reply := p.engine.answer elapsed prepared p.sink
  let failed := match reply.result with
    | .ok _ => []
    | .error e => [Event.lineFailed number e]
  { engine := reply.engine
    sink := reply.sink
    events := p.events ++ (.batchLine number text :: reply.events ++ failed)
    summary := ⟨p.summary.executed + 1, p.summary.failed + failed.length⟩ }

/-- The batch after one more line, trimmed. -/
def Progress.line (p : Progress σ) (number elapsed : Nat) (text : String) : Progress σ :=
  if isSkipped text then p else p.record number elapsed text (p.engine.prepare text)

/-- The rest of a batch from the line of a given number on. How long each line takes is what
`clock` says. -/
def run (clock : Nat → Nat) (p : Progress σ) (number : Nat) : List Text.Bytes → Report σ
  | [] => ⟨p, .ok ()⟩
  | bytes :: rest =>
    match Text.decode bytes with
    | none => ⟨p, .error .inputNotText⟩
    | some line => run clock (p.line number (clock number) (Text.trimmed line)) (number + 1) rest

end Batch

/-- **Runs a batch**, its lines numbered from one. -/
def Engine.runBatch {σ : Type} [Sink σ] (e : Engine) (clock : Nat → Nat) (input : Text.Bytes)
    (out : σ) : Batch.Report σ :=
  Batch.run clock ⟨e, out, [], ⟨0, 0⟩⟩ 1 (Text.linesOf input)

end RelEngine
