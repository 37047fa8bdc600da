import RelEngine.CommandLine

/-!
# The program

The outermost layer: it reads the variables, the script or the standard input, lets the library do
each step, measures how long the step took, and writes what the step has put out. It decides
nothing.
-/

namespace RelEngine.Program

/-- The bytes up to the next line feed, or `none` at the end of the stream. -/
partial def readLine (stream : IO.FS.Stream) (line : List UInt8) : IO (Option Text.Bytes) := do
  match (← stream.read 1).toList with
  | [] => return if line.isEmpty then none else some line.reverse
  | byte :: _ =>
    if byte == Text.newline then return some line.reverse else readLine stream (byte :: line)

/-- The value of a computation and the milliseconds it took. -/
def timed {α : Type} (compute : Unit → α) : IO (α × Nat) := do
  let start ← IO.monoMsNow
  let value ← IO.lazyPure compute
  let stop ← IO.monoMsNow
  return (value, stop - start)

/-- Writes what a transcript has taken. -/
def flush (output : Transcript) : IO Unit := do
  let stdout ← IO.getStdout
  stdout.write ⟨output.written⟩
  stdout.flush

/-- Ends with a failure. -/
def fail (f : CommandLine.Failure) : IO UInt32 := do
  IO.eprint f.message
  return 1

/-- Runs a script line by line. -/
def runScript (engine : Engine) (content : Text.Bytes) : IO UInt32 := do
  let mut progress : Batch.Progress Transcript := ⟨engine, .unlimited, [], ⟨0, 0⟩⟩
  let mut number := 1
  for bytes in Text.linesOf content do
    match Text.decode bytes with
    | none => return ← fail .inputNotText
    | some line =>
      let text := Text.trimmed line
      unless Batch.isSkipped text do
        let current := progress.engine
        let (prepared, elapsed) ← timed fun _ => current.prepare text
        progress := progress.record number elapsed text prepared
        flush progress.sink
        progress := { progress with sink := .unlimited, events := [] }
      number := number + 1
  return 0

/-- Holds a dialogue over the standard input. -/
partial def converse (stream : IO.FS.Stream) (dialogue : Console.Dialogue Transcript) :
    IO UInt32 := do
  let dialogue := dialogue.prompted
  flush dialogue.sink
  let dialogue := { dialogue with sink := Transcript.unlimited }
  match ← readLine stream [] with
  | none => return 0
  | some bytes =>
    match Text.decode bytes with
    | none => fail .inputNotText
    | some line =>
      match Console.request (Text.trimmed line) with
      | .nothing => converse stream dialogue
      | .stop => return 0
      | .run text =>
        let (prepared, elapsed) ← timed fun _ => dialogue.engine.prepare text
        let dialogue := dialogue.record elapsed prepared
        flush dialogue.sink
        IO.eprint dialogue.diagnostics
        converse stream { dialogue with sink := .unlimited, diagnostics := "" }

/-- The settings that the variables of the environment ask for. -/
def settings : IO Settings := do
  let values ← Settings.variableNames.mapM fun name => return (name, ← IO.getEnv name)
  return Settings.ofVariables fun name => (values.lookup name).join

/-- The bytes of a file, if it can be read. -/
def contentOf (path : String) : IO (Option Text.Bytes) := do
  try
    return some (← IO.FS.readBinFile path).toList
  catch _ => return none

end RelEngine.Program

/-- With an argument runs the script of that name, else holds a dialogue. -/
def main (args : List String) : IO UInt32 := do
  let engine := RelEngine.Engine.ofSettings (← RelEngine.Program.settings)
  match args with
  | [] => RelEngine.Program.converse (← IO.getStdin) ⟨engine, .unlimited, ""⟩
  | path :: _ =>
    match ← RelEngine.Program.contentOf path with
    | none => RelEngine.Program.fail .scriptNotFound
    | some content => RelEngine.Program.runScript engine content
