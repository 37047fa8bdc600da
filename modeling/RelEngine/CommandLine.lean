import RelEngine.Batch
import RelEngine.Console

/-!
# The command line

With a script the program runs it as a batch; without one it holds a dialogue over its standard
input. Failing statements do not make the program fail. Two things do: a script that cannot be
found, and input that is not text. Then the exit code is one, and the last line of the diagnostics
says why.
-/

namespace RelEngine.CommandLine

/-- **Why the program fails.** -/
inductive Failure where
  | scriptNotFound
  | inputNotText
deriving DecidableEq, Repr

/-- The line by which a failing program ends its diagnostics. -/
def Failure.message : Failure → String
  | scriptNotFound =>
    "Error: Io(Os \x7b code: 2, kind: NotFound, message: \"No such file or directory\" \x7d)\n"
  | inputNotText =>
    "Error: Io(Error \x7b kind: InvalidData, message: \"" ++ Error.inputNotText.message ++
      "\" \x7d)\n"

/-- **Where statements come from**: a script, a script that is not there, or the standard input. -/
inductive Source where
  | script (content : Text.Bytes)
  | missingScript
  | dialogue (input : Text.Bytes)

/-- **What a run of the program leaves**: its exit code and its two output streams. -/
structure Exit where
  code : Nat
  output : Transcript
  diagnostics : String

/-- The end of a program: code zero, or code one and the reason why it failed. -/
def finish (output : Transcript) (diagnostics : String) : Option Failure → Exit
  | none => ⟨0, output, diagnostics⟩
  | some f => ⟨1, output, diagnostics ++ f.message⟩

/-- Whether reading the input failed. -/
def readingFailure : Except Error Unit → Option Failure
  | .ok _ => none
  | .error _ => some .inputNotText

/-- **A run of the program** under some settings; `clock` says how long each line takes. -/
def run (settings : Settings) (clock : Nat → Nat) (source : Source) : Exit :=
  let engine := Engine.ofSettings settings
  match source with
  | .missingScript => finish .unlimited "" (some .scriptNotFound)
  | .script content =>
    let report := engine.runBatch clock content Transcript.unlimited
    finish report.progress.sink "" (readingFailure report.result)
  | .dialogue input =>
    let ending := engine.converse clock input Transcript.unlimited
    finish ending.dialogue.sink ending.dialogue.diagnostics (readingFailure ending.result)

end RelEngine.CommandLine
