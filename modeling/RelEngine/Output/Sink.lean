import RelEngine.Error
import RelEngine.Text.Bytes

/-!
# Sinks

Output goes to a sink. A sink takes a text and says whether it took all of it; what it does with a
text it cannot take is its own affair. The engine knows no more about sinks than this class.

`Transcript` is the sink that keeps what it takes. It has room for a number of bytes, or without
limit; of a text that does not fit it keeps the part that does, and from then on it refuses every
text that is not empty.
-/

namespace RelEngine

/-- **Sinks**: a place that texts are put into, one after the other. The truth value says whether
all of the text was taken. -/
class Sink (σ : Type) where
  put : σ → String → σ × Bool

/-- Puts lines one after the other, each with its line feed, up to the first that is not taken. -/
def Sink.putLines {σ : Type} [Sink σ] (out : σ) : List String → σ × Bool
  | [] => (out, true)
  | line :: rest =>
    match Sink.put out (line.push '\n') with
    | (out, true) => Sink.putLines out rest
    | (out, false) => (out, false)

/-- Puts the lines of a result, if there is one. A sink that does not take them all is the error
then. -/
def Sink.print {σ : Type} [Sink σ] (out : σ) (result : Except Error (List String)) :
    σ × Except Error Unit :=
  match result with
  | .error e => (out, .error e)
  | .ok lines =>
    match Sink.putLines out lines with
    | (out, true) => (out, .ok ())
    | (out, false) => (out, .error .outputClosed)

/-- **A sink that keeps what it takes.** -/
structure Transcript where
  /-- The bytes taken so far. -/
  written : Array UInt8
  /-- How many more bytes there is room for; `none` is without limit. -/
  room : Option Nat
deriving DecidableEq, Repr

namespace Transcript

/-- An empty transcript that takes everything. -/
def unlimited : Transcript := ⟨#[], none⟩

/-- An empty transcript with room for some bytes. -/
def limited (bytes : Nat) : Transcript := ⟨#[], some bytes⟩

/-- The transcript after a text was put into it, and whether all of it was taken. -/
def put (t : Transcript) (text : String) : Transcript × Bool :=
  let bytes := Text.utf8 text
  match t.room with
  | none => (⟨t.written ++ bytes, none⟩, true)
  | some n =>
    (⟨t.written ++ bytes.take n, some (n - bytes.length)⟩, decide (bytes.length ≤ n))

instance : Sink Transcript := ⟨Transcript.put⟩

end Transcript

end RelEngine
