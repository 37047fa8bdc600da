import Mathlib.Data.List.Basic
import RelEngine.Value.Literal

/-!
# Numerals

A whole number has many spellings that are read as it: with a plus sign, with zeros in front, and
zero with a minus. It is printed in one of them. That one has a form that can be told without reading
it (`Decimal.IsPlain`): it is `0`, or its first digit is another one, behind nothing or behind a
minus.

So a spelling that is read as a number is the printed form of that number iff it is plain
(`Decimal.toString_eq_iff_isPlain`). One direction looks at what is printed. In the other the digits
are read and printed again, where nothing may be lost. The digits are followed from the front, with
the number read so far in front of them; it is not zero, so that its own digits and those that are
still to be read are the digits of the whole number (`Decimal.toDigits_ofDigitChars`).

* `ColumnType.print_eq_iff` — which literals of a column are printed forms of their values.
-/

namespace RelEngine

namespace Decimal

/-- **Plain numerals**: `0`, or digits that do not begin with it, perhaps behind a minus. -/
def IsPlain (s : List Char) : Prop :=
  s = ['0'] ∨ ∃ d rest, d.isDigit = true ∧ d ≠ '0' ∧ (s = d :: rest ∨ s = '-' :: d :: rest)

/-! ### Digits -/

/-- Digits are read exactly if there are some and nothing else, and then as the number they make. -/
theorem readDigits_eq_some_iff {s : List Char} {n : Nat} :
    readDigits s = some n ↔
      s ≠ [] ∧ (∀ c ∈ s, c.isDigit = true) ∧ Nat.ofDigitChars 10 s 0 = n := by
  unfold readDigits
  split
  · next digits =>
    rw [Bool.and_eq_true, Bool.not_eq_true', List.all_eq_true] at digits
    have nonempty : s ≠ [] := by
      rintro rfl
      exact absurd digits.1 (by decide)
    rw [Option.some.injEq]
    exact ⟨fun h => ⟨nonempty, digits.2, h⟩, fun h => h.2.2⟩
  · next other =>
    refine ⟨nofun, fun ⟨nonempty, digits, _⟩ => absurd ?_ other⟩
    rw [Bool.and_eq_true, Bool.not_eq_true', List.all_eq_true]
    exact ⟨List.isEmpty_eq_false_iff.2 nonempty, digits⟩

/-- Every digit is the digit of a number below ten. -/
theorem exists_digitChar {d : Char} (h : d.isDigit = true) : ∃ k < 10, d = k.digitChar := by
  -- the digits stand side by side in the character set
  have bounds : 48 ≤ d.toNat ∧ d.toNat ≤ 57 := by
    rw [Char.isDigit, Bool.and_eq_true, decide_eq_true_eq, decide_eq_true_eq] at h
    exact ⟨UInt32.le_iff_toNat_le.1 h.1, UInt32.le_iff_toNat_le.1 h.2⟩
  refine ⟨d.toNat - 48, by omega, Char.toNat_inj.1 ?_⟩
  rw [Nat.toNat_digitChar_of_lt_ten (by omega)]
  omega

/-- Digits that are read behind a number other than zero are printed behind it. -/
theorem toDigits_ofDigitChars {s : List Char} (digits : ∀ c ∈ s, c.isDigit = true) :
    ∀ {n : Nat}, 0 < n →
      Nat.toDigits 10 (Nat.ofDigitChars 10 s n) = Nat.toDigits 10 n ++ s := by
  -- on the digits that are left, for any number other than zero that has been read so far
  induction s with
  | nil =>
    intro n _
    rw [Nat.ofDigitChars_nil, List.append_nil]
  | cons d rest ih =>
    intro n positive
    rw [List.forall_mem_cons] at digits
    obtain ⟨k, small, rfl⟩ := exists_digitChar digits.1
    -- the digit becomes the last of the number that has been read
    calc Nat.toDigits 10 (Nat.ofDigitChars 10 (k.digitChar :: rest) n)
        = Nat.toDigits 10 (Nat.ofDigitChars 10 rest (10 * n + k)) := by
          rw [Nat.ofDigitChars_cons_digitChar_of_lt_ten small]
      _ = Nat.toDigits 10 (10 * n + k) ++ rest := ih digits.2 (by omega)
      _ = Nat.toDigits 10 n ++ [k.digitChar] ++ rest := by
          rw [← Nat.toDigits_append_toDigits (by decide) positive small,
            Nat.toDigits_of_lt_base small]
      _ = Nat.toDigits 10 n ++ k.digitChar :: rest := by
          rw [List.append_assoc, List.singleton_append]

/-- Digits without a zero in front are printed as they were read. -/
theorem toDigits_readDigits {d : Char} {rest : List Char} {n : Nat} (leading : d ≠ '0')
    (read : readDigits (d :: rest) = some n) : 0 < n ∧ Nat.toDigits 10 n = d :: rest := by
  obtain ⟨-, digits, rfl⟩ := readDigits_eq_some_iff.1 read
  rw [List.forall_mem_cons] at digits
  obtain ⟨k, small, rfl⟩ := exists_digitChar digits.1
  have positive : 0 < k := by
    rw [Nat.pos_iff_ne_zero]
    rintro rfl
    exact leading rfl
  -- the first digit is such a number, since it is not zero
  have whole : Nat.toDigits 10 (Nat.ofDigitChars 10 (k.digitChar :: rest) 0)
      = k.digitChar :: rest := by
    rw [Nat.ofDigitChars_cons_digitChar_of_lt_ten small, Nat.mul_zero, Nat.zero_add,
      toDigits_ofDigitChars digits.2 positive, Nat.toDigits_of_lt_base small,
      List.singleton_append]
  refine ⟨Nat.pos_iff_ne_zero.2 fun zero => ?_, whole⟩
  -- the digit of zero is no leading digit
  rw [zero, Nat.toDigits_zero] at whole
  exact leading (List.cons.inj whole).1.symm

/-- The digits of a number other than zero have no zero in front. -/
theorem exists_leading_digit {n : Nat} (positive : 0 < n) :
    ∃ d rest, Nat.toDigits 10 n = d :: rest ∧ d.isDigit = true ∧ d ≠ '0' := by
  induction n using Nat.strongRecOn with
  | ind n ih =>
    by_cases small : n < 10
    · refine ⟨n.digitChar, [], Nat.toDigits_of_lt_base small, ?_, ?_⟩
      · rw [Nat.isDigit_digitChar]
        exact decide_eq_true small
      · rw [Ne, Nat.digitChar_eq_zero]
        exact Nat.pos_iff_ne_zero.1 positive
    · -- the first digit is that of the number without its last digit
      obtain ⟨d, rest, front, digit, leading⟩ := ih (n / 10) (by omega) (by omega)
      refine ⟨d, rest ++ [(n % 10).digitChar], ?_, digit, leading⟩
      rw [Nat.toDigits_of_base_le (by decide) (by omega), front, List.cons_append]

/-! ### Numbers with a sign -/

/-- A number that is not negative is printed as its digits. -/
theorem toList_toString_natCast (n : Nat) :
    (toString (n : Int)).toList = Nat.toDigits 10 n := by
  change n.repr.toList = _
  exact Nat.toList_repr

/-- A negative number is printed with the minus before the digits. -/
theorem toList_toString_neg {n : Nat} (positive : 0 < n) :
    (toString (-(n : Int))).toList = '-' :: Nat.toDigits 10 n := by
  obtain ⟨m, rfl⟩ := Nat.exists_eq_succ_of_ne_zero (Nat.pos_iff_ne_zero.1 positive)
  change ("-" ++ (m + 1).repr).toList = '-' :: Nat.toDigits 10 (m + 1)
  rw [String.toList_append, Nat.toList_repr]
  rfl

/-- Printed numbers are plain. -/
theorem isPlain_toString (i : Int) : IsPlain (toString i).toList := by
  obtain ⟨n, rfl | rfl⟩ := i.eq_nat_or_neg
  · rw [toList_toString_natCast]
    -- zero has no minus, also if it is taken as a negative number
    rcases Nat.eq_zero_or_pos n with rfl | positive
    · exact .inl (Nat.toDigits_zero 10)
    · obtain ⟨d, rest, digits, digit, leading⟩ := exists_leading_digit positive
      exact .inr ⟨d, rest, digit, leading, .inl digits⟩
  · rcases Nat.eq_zero_or_pos n with rfl | positive
    · exact .inl (Nat.toDigits_zero 10)
    · obtain ⟨d, rest, digits, digit, leading⟩ := exists_leading_digit positive
      refine .inr ⟨d, rest, digit, leading, .inr ?_⟩
      rw [toList_toString_neg positive, digits]

/-- The number that a spelling is read as: its digits, taken from zero behind a minus. -/
theorem toInt_of_readInt32 {s : String} {i : Int32} (h : readInt32 s = some i) :
    ∃ n, readDigits (splitSign s.toList).2 = some n ∧
      i.toInt = if (splitSign s.toList).1 then -(n : Int) else n := by
  unfold readInt32 at h
  generalize splitSign s.toList = signed at h ⊢
  obtain ⟨negative, digits⟩ := signed
  dsimp only at h ⊢
  cases read : readDigits digits with
  | none =>
    rw [read] at h
    cases h
  | some n =>
    rw [read] at h
    dsimp only at h
    refine ⟨n, rfl, ?_⟩
    -- what is read is in the range of the type, so nothing of it is lost there
    generalize (if negative = true then -(n : Int) else n) = value at h ⊢
    split at h
    · next range =>
      obtain rfl := Option.some.inj h
      have least : Int32.minValue.toInt = -2 ^ 31 := by decide
      have greatest : Int32.maxValue.toInt = 2 ^ 31 - 1 := by decide
      rw [least, greatest] at range
      exact Int32.toInt_ofInt_of_le range.1 (by omega)
    · cases h

/-- **Printed again.** A spelling that is read as a number is how this number is printed iff it is
plain. -/
theorem toString_eq_iff_isPlain {s : String} {i : Int32} (h : readInt32 s = some i) :
    toString i.toInt = s ↔ IsPlain s.toList := by
  constructor
  · rintro rfl
    exact isPlain_toString i.toInt
  · intro plain
    obtain ⟨n, read, number⟩ := toInt_of_readInt32 h
    rw [← String.toList_inj, number]
    rcases plain with zero | ⟨d, rest, digit, leading, unsigned | signed⟩
    · rw [zero] at read ⊢
      obtain rfl : 0 = n := Option.some.inj read
      exact Nat.toDigits_zero 10
    · -- a digit is no sign
      have sign : splitSign (d :: rest) = (false, d :: rest) := by
        unfold splitSign
        split
        · next same => exact absurd digit (by rw [(List.cons.inj same).1]; decide)
        · next same => exact absurd digit (by rw [(List.cons.inj same).1]; decide)
        · rfl
      rw [unsigned, sign] at read ⊢
      obtain ⟨-, printed⟩ := toDigits_readDigits leading read
      exact (toList_toString_natCast n).trans printed
    · have sign : splitSign ('-' :: d :: rest) = (true, d :: rest) := rfl
      rw [signed, sign] at read ⊢
      obtain ⟨positive, printed⟩ := toDigits_readDigits leading read
      change (toString (-(n : Int))).toList = '-' :: d :: rest
      rw [toList_toString_neg positive, printed]

end Decimal

/-- **Literals that are printed forms.** A text literal is the printed form of its value, and a
literal for a number is if it is plain. -/
theorem ColumnType.print_eq_iff {type : ColumnType} {column literal : String} {v : Value}
    (read : type.read column literal = .ok v) :
    v.print = literal ↔ type = .text ∨ Decimal.IsPlain literal.toList := by
  cases type with
  | int =>
    rw [ColumnType.read] at read
    split at read
    · next i number =>
      cases read
      rw [Value.print, Decimal.toString_eq_iff_isPlain number]
      simp
    · cases read
  -- a text is stored as it is, if it is stored
  | text =>
    rw [ColumnType.read] at read
    split at read
    · cases read
      exact iff_of_true rfl (.inl rfl)
    · cases read

/-- Of the values of a type, the one that a literal is read as is the only one that may be printed in
this way. -/
theorem ColumnType.eq_of_read {type : ColumnType} {column literal : String} {v w : Value}
    (read : type.read column literal = .ok v) (typed : w.HasType type)
    (printed : w.print = literal) : w = v := by
  have again := ColumnType.read_print typed column
  rw [printed, read] at again
  exact (Except.ok.inj again).symm

end RelEngine
