import RelEngine.Engine
import RelEngine.Text.Blank

/-!
# The console

The console reads one statement a line, behind a prompt, until the input ends or a line asks it to
stop. White space around a line does not matter and empty lines do nothing. A failing statement is
reported among the diagnostics and the dialogue goes on. A line that is not well-formed UTF-8 ends
the dialogue.
-/

namespace RelEngine.Console

/-- What stands before every line that is read. -/
def prompt : String := "simdb> "

/-- **What a line asks for.** -/
inductive Request where
  | nothing
  | stop
  | run (text : String)
deriving DecidableEq, Repr

/-- What a trimmed line asks for. -/
def request (text : String) : Request :=
  if text.isEmpty then .nothing
  else if Text.sameLetters text ".exit" || Text.sameLetters text "exit" then .stop
  else .run text

/-- **A dialogue under way.** -/
structure Dialogue (σ : Type) where
  engine : Engine
  sink : σ
  /-- What has gone to the diagnostics so far. -/
  diagnostics : String

/-- **How a dialogue ended.** -/
structure Ending (σ : Type) where
  dialogue : Dialogue σ
  result : Except Error Unit

variable {σ : Type} [Sink σ]

/-- The line by which a failure is reported among the diagnostics. -/
def complaint (e : Error) : String := "Error: " ++ e.message ++ "\n"

/-- The dialogue after the prompt was written. -/
def Dialogue.prompted (d : Dialogue σ) : Dialogue σ :=
  { d with sink := (Sink.put d.sink prompt).1 }

/-- The dialogue after one statement, given what preparing its text has led to. -/
def Dialogue.record (d : Dialogue σ) (elapsed : Nat) (prepared : Except Error Outcome) :
    Dialogue σ :=
  let reply := d.engine.answer elapsed prepared d.sink
  { engine := reply.engine
    sink := reply.sink
    diagnostics := match reply.result with
      | .ok _ => d.diagnostics
      | .error e => d.diagnostics ++ complaint e }

/-- The rest of a dialogue from the line of a given number on; `clock` says how long each line
takes. -/
def run (clock : Nat → Nat) (d : Dialogue σ) (number : Nat) : List Text.Bytes → Ending σ
  | [] => ⟨d.prompted, .ok ()⟩
  | bytes :: rest =>
    let d := d.prompted
    match Text.decode bytes with
    | none => ⟨d, .error .inputNotText⟩
    | some line =>
      match request (Text.trimmed line) with
      | .nothing => run clock d (number + 1) rest
      | .stop => ⟨d, .ok ()⟩
      | .run text => run clock (d.record (clock number) (d.engine.prepare text)) (number + 1) rest

end RelEngine.Console

namespace RelEngine

/-- **Holds a dialogue** over an input, its lines numbered from one. -/
def Engine.converse {σ : Type} [Sink σ] (e : Engine) (clock : Nat → Nat) (input : Text.Bytes)
    (out : σ) : Console.Ending σ :=
  Console.run clock ⟨e, out, ""⟩ 1 (Text.linesOf input)

end RelEngine
