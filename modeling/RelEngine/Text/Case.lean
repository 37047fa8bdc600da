/-!
# Letter case

Keywords of the statement language are compared letter by letter without regard to the case of
ASCII letters (`sameLetters`); every other character stands for itself.

Type names are looked up by their upper-case form. Apart from the ASCII letters only a few
characters have an upper-case form that is written with ASCII letters — the dotless i, the long s,
the sharp s and the Latin ligatures — so `upper` maps those and keeps every other character: no
other character can take part in spelling an ASCII name.
-/

namespace RelEngine.Text

/-- The lower-case form of an ASCII letter; other characters stand for themselves. -/
def lowerAscii (c : Char) : Char := c.toLower

/-- The lower-case form of a text, ASCII letters only. -/
def lower (s : String) : List Char := s.toList.map lowerAscii

/-- Equality up to the case of ASCII letters. -/
def sameLetters (s t : String) : Bool := lower s == lower t

theorem sameLetters_iff {s t : String} : sameLetters s t = true ↔ lower s = lower t := by
  simp [sameLetters]

@[simp] theorem sameLetters_self (s : String) : sameLetters s s = true := by
  simp [sameLetters]

/-- The upper-case form of a character, as far as it is written with ASCII letters. -/
def upperForm (c : Char) : List Char :=
  match c with
  | 'ß' => ['S', 'S']
  | 'ı' => ['I']
  | 'ſ' => ['S']
  | 'ﬀ' => ['F', 'F']
  | 'ﬁ' => ['F', 'I']
  | 'ﬂ' => ['F', 'L']
  | 'ﬃ' => ['F', 'F', 'I']
  | 'ﬄ' => ['F', 'F', 'L']
  | 'ﬅ' => ['S', 'T']
  | 'ﬆ' => ['S', 'T']
  | c => [c.toUpper]

/-- The upper-case form of a text. -/
def upper (s : String) : List Char := s.toList.flatMap upperForm

end RelEngine.Text
