/-!
# Text as bytes

Input arrives and output leaves as bytes. `utf8` encodes a text; `decode` reads bytes that must be
well-formed UTF-8. `linesOf` cuts a byte sequence into the lines that are read one at a time: a line
ends at a line feed, and a last line may end with the input.

* `linesOf_append_newline` — a complete line is read off the front;
* `utf8_append` — encoding is character by character.
-/

namespace RelEngine.Text

/-- A sequence of bytes. -/
abbrev Bytes := List UInt8

/-- The UTF-8 encoding of a text. -/
def utf8 (s : String) : Bytes := s.toList.flatMap String.utf8EncodeChar

/-- Encoding is character by character. -/
theorem utf8_append (s t : String) : utf8 (s ++ t) = utf8 s ++ utf8 t := by
  simp [utf8]

/-- The text that a byte sequence encodes, if it is well-formed UTF-8. -/
def decode (bytes : Bytes) : Option String := String.fromUTF8? ⟨bytes.toArray⟩

/-- The line feed that ends a line. -/
def newline : UInt8 := 10

/-- The lines of a byte sequence, without the line feeds that end them. Nothing follows the last
line feed when the sequence ends with one. -/
def linesOf (bytes : Bytes) : List Bytes :=
  match bytes with
  | [] => []
  | b :: rest =>
    if b = newline then [] :: linesOf rest
    else
      match linesOf rest with
      | [] => [[b]]
      | line :: lines => (b :: line) :: lines

/-- A complete line is read off the front. -/
theorem linesOf_append_newline {line : Bytes} (h : newline ∉ line) (rest : Bytes) :
    linesOf (line ++ newline :: rest) = line :: linesOf rest := by
  induction line with
  | nil => simp [linesOf]
  | cons b line ih =>
    simp only [List.mem_cons, not_or] at h
    simp [linesOf, Ne.symm h.1, ih h.2]

end RelEngine.Text
