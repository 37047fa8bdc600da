/-!
# Blank characters

Two classes of blanks are told apart. The wide class `isBlank` is the Unicode property
White_Space: it bounds bare words, decides which words are quoted when they are printed, and is what
`trim` takes off the two ends of a line. The narrow class `isGap` holds the four characters that may
stand between the parts of a statement tree.

* `gap_isBlank` — the narrow class lies inside the wide one;
* `dropGap_length_le` — skipping a gap never makes a text longer.
-/

namespace RelEngine.Text

/-- **White space** in the sense of the Unicode property White_Space. -/
def isBlank (c : Char) : Bool :=
  let n := c.toNat
  (0x09 ≤ n && n ≤ 0x0D) || n == 0x20 || n == 0x85 || n == 0xA0 || n == 0x1680 ||
    (0x2000 ≤ n && n ≤ 0x200A) || n == 0x2028 || n == 0x2029 || n == 0x202F || n == 0x205F ||
    n == 0x3000

/-- **Gap characters**: space, tab, line feed and carriage return. -/
def isGap (c : Char) : Bool :=
  c == ' ' || c == '\t' || c == '\n' || c == '\r'

/-- Every gap character is white space. -/
theorem gap_isBlank {c : Char} (h : isGap c = true) : isBlank c = true := by
  simp only [isGap, Bool.or_eq_true, beq_iff_eq] at h
  rcases h with ((rfl | rfl) | rfl) | rfl <;> decide

/-- The text after its leading gap characters. -/
def dropGap (s : List Char) : List Char := s.dropWhile isGap

/-- Skipping a gap never makes a text longer. -/
theorem dropGap_length_le (s : List Char) : (dropGap s).length ≤ s.length :=
  (List.dropWhile_suffix _).length_le

/-- The text without the white space at its two ends. -/
def trim (s : List Char) : List Char :=
  ((s.dropWhile isBlank).reverse.dropWhile isBlank).reverse

/-- `trim` on strings. -/
def trimmed (s : String) : String := String.ofList (trim s.toList)

end RelEngine.Text
