/-!
# Reading whole numbers

Whole numbers are read from a run of ASCII digits that may stand behind a sign; nothing else may
surround them. Signed numbers (`readInt32`) accept `+` and `-`, counts (`readCount`) only `+`. A
number outside its range is refused, never cut.

* `readDigits_toDigits` — the digits of a number read as that number;
* `readInt32_toString` — so does the printed form of a signed number, its minus included.
-/

namespace RelEngine.Decimal

/-- The number written by a non-empty run of ASCII digits and nothing else. -/
def readDigits (s : List Char) : Option Nat :=
  if !s.isEmpty && s.all Char.isDigit then some (Nat.ofDigitChars 10 s 0) else none

/-- The digits of a number read as that number. -/
theorem readDigits_toDigits (n : Nat) : readDigits (Nat.toDigits 10 n) = some n := by
  have all : (Nat.toDigits 10 n).all Char.isDigit = true :=
    List.all_eq_true.2 fun _ h => Nat.isDigit_of_mem_toDigits (by decide) (by decide) h
  have ne : (Nat.toDigits 10 n).isEmpty = false := by
    simp
  simp [readDigits, all, ne]

/-- A sign at the start of a text, `true` for a minus, and what follows it. -/
def splitSign : List Char → Bool × List Char
  | '+' :: rest => (false, rest)
  | '-' :: rest => (true, rest)
  | s => (false, s)

/-- The digits of a number begin with no sign. -/
theorem splitSign_toDigits (n : Nat) :
    splitSign (Nat.toDigits 10 n) = (false, Nat.toDigits 10 n) := by
  have digit : ∀ c ∈ Nat.toDigits 10 n, c.isDigit = true := fun _ h =>
    Nat.isDigit_of_mem_toDigits (by decide) (by decide) h
  unfold splitSign
  split
  · next rest same => exact absurd (digit '+' (by simp [same])) (by decide)
  · next rest same => exact absurd (digit '-' (by simp [same])) (by decide)
  · rfl

/-- A printed whole number is a minus, if it is negative, and the digits of its amount. -/
theorem splitSign_toString (i : Int) :
    splitSign (toString i).toList = (decide (i < 0), Nat.toDigits 10 i.natAbs) := by
  cases i with
  | ofNat n =>
    change splitSign n.repr.toList = (decide ((n : Int) < 0), Nat.toDigits 10 n)
    rw [Nat.toList_repr, splitSign_toDigits, decide_eq_false (by omega)]
  | negSucc n =>
    rw [decide_eq_true (Int.negSucc_lt_zero n)]
    change splitSign ("-" ++ (n + 1).repr).toList = (true, Nat.toDigits 10 (n + 1))
    rw [String.toList_append, Nat.toList_repr]
    rfl

/-- The largest count, one less than the sixty-fourth power of two. -/
def maxCount : Nat := 18446744073709551615

/-- A count: digits behind an optional plus sign, at most `maxCount`. -/
def readCount (s : String) : Option Nat :=
  let digits := match s.toList with
    | '+' :: rest => rest
    | text => text
  (readDigits digits).filter (· ≤ maxCount)

/-- A 32-bit signed number: digits behind an optional sign, within the range of the type. -/
def readInt32 (s : String) : Option Int32 :=
  let (negative, digits) := splitSign s.toList
  match readDigits digits with
  | none => none
  | some n =>
    let value : Int := if negative then -n else n
    if Int32.minValue.toInt ≤ value ∧ value ≤ Int32.maxValue.toInt then some (Int32.ofInt value)
    else none

/-- A printed 32-bit number is read as that number. -/
theorem readInt32_toString (i : Int32) : readInt32 (toString i.toInt) = some i := by
  have amount : (if decide (i.toInt < 0) = true then -(i.toInt.natAbs : Int)
      else i.toInt.natAbs) = i.toInt := by
    split
    · next negative => have := of_decide_eq_true negative; omega
    · next negative => have := of_decide_eq_false (Bool.eq_false_iff.2 negative); omega
  unfold readInt32
  rw [splitSign_toString]
  dsimp only
  rw [readDigits_toDigits]
  dsimp only
  rw [amount, if_pos ⟨i.minValue_le_toInt, i.toInt_le⟩, Int32.ofInt_toInt]

end RelEngine.Decimal
