import RelEngine.Text.Printed

/-!
# Quoted text in messages

A message that shows a piece of user text shows it between double quotes, with every character
made visible: quotes and backslashes behind a backslash, the four usual control characters by their
letter, and any other character without a printed form by its code point, `\u{..}` in lower-case
hexadecimal without leading zeros.

* `quoted` — the quoted form of a text;
* `quotedList` — a bracketed list of quoted texts.
-/

namespace RelEngine.Text

/-- The hexadecimal digits of a number, lower case, without leading zeros. -/
def hex (n : Nat) : List Char := Nat.toDigits 16 n

/-- How one character is shown inside quotes. -/
def shown (c : Char) : List Char :=
  match c with
  | '"' => ['\\', '"']
  | '\\' => ['\\', '\\']
  | '\t' => ['\\', 't']
  | '\r' => ['\\', 'r']
  | '\n' => ['\\', 'n']
  | '\x00' => ['\\', '0']
  | c => if hasPrintedForm c then [c] else ['\\', 'u', '\x7b'] ++ hex c.toNat ++ ['\x7d']

/-- A text between double quotes, every character made visible. -/
def quoted (s : List Char) : String :=
  String.ofList ('"' :: s.flatMap shown ++ ['"'])

/-- A bracketed list of quoted texts, separated by a comma and a space. -/
def quotedList (texts : List String) : String :=
  "[" ++ String.intercalate ", " (texts.map fun t => quoted t.toList) ++ "]"

end RelEngine.Text
