import Mathlib.Algebra.BigOperators.Group.List.Basic
import Mathlib.Algebra.GroupWithZero.Nat
import RelEngine.Proofs.CutOutput
import RelEngine.Proofs.Numerals

/-!
# Line feeds in printed texts

Lines are put out one after the other, each with a line feed behind it. Whoever reads the output
cuts it at every line feed, at those inside the lines too. This module counts them: the bytes of
some lines are cut into as many pieces as there are lines and line feeds inside
(`Text.length_linesOf_lineBytes`), and the pieces are the lines themselves if no line has one inside
(`Text.linesOf_lineBytes`).

Which texts have a line feed inside is settled at their sources. Whole numbers and times are printed
in digits, signs, points and the letters of an exponent. A cell has the characters of its text and
spaces, or fewer, so that all depends on the texts that are stored and on those that are written in
a query.

* `Cost.lines_shape` — a report is three lines and a blank one;
* `Value.oneLine_print`, `Renderer.oneLine_cells` — a line of cells has line feeds from texts only.
-/

namespace RelEngine

/-! ### Cutting what was put out -/

namespace Text

/-- **A text on one line**: it has no line feed. -/
def OneLine (text : String) : Prop := '\n' ∉ text.toList

/-- How many line feeds a text has. -/
def feeds (text : String) : Nat := text.toList.count '\n'

instance (text : String) : Decidable (OneLine text) :=
  inferInstanceAs (Decidable ('\n' ∉ text.toList))

/-- A text without line feeds is on one line. -/
theorem feeds_eq_zero_iff {text : String} : feeds text = 0 ↔ OneLine text := List.count_eq_zero

/-- Outside the seven-bit range all bytes of an encoding are marked. -/
theorem le_of_mem_encode {c : Char} (large : 127 < c.val.toNat) {b : UInt8}
    (member : b ∈ String.utf8EncodeChar c) : 128 ≤ b.toNat := by
  have marked : ∀ n, 128 ≤ n → n < 256 → b = UInt8.ofNat n → 128 ≤ b.toNat := by
    intro n least small same
    rw [same, UInt8.toNat_ofNat_of_lt' small]
    exact least
  simp only [String.utf8EncodeChar, if_neg (Nat.not_le.2 large)] at member
  -- there are two, three or four bytes
  split at member
  · simp only [List.mem_cons, List.not_mem_nil, or_false] at member
    rcases member with same | same <;> exact marked _ (by omega) (by omega) same
  split at member
  · simp only [List.mem_cons, List.not_mem_nil, or_false] at member
    rcases member with same | same | same <;> exact marked _ (by omega) (by omega) same
  · simp only [List.mem_cons, List.not_mem_nil, or_false] at member
    rcases member with same | same | same | same <;> exact marked _ (by omega) (by omega) same

/-- The line feed is the one character that has the byte of a line feed in its encoding. -/
theorem count_newline_encode (c : Char) :
    (String.utf8EncodeChar c).count newline = if c = '\n' then 1 else 0 := by
  by_cases feed : c = '\n'
  · subst feed
    decide +kernel
  rw [if_neg feed, List.count_eq_zero]
  by_cases large : 127 < c.val.toNat
  · exact fun member => absurd (le_of_mem_encode large member) (by decide)
  · -- in the seven-bit range a character is its own byte
    have value : c.val.toNat ≠ 10 := fun same => feed (Char.ext (UInt32.toNat_inj.1 same))
    rw [String.utf8EncodeChar, if_pos (Nat.not_lt.1 large), List.mem_singleton]
    intro same
    have := congrArg UInt8.toNat same
    rw [UInt8.toNat_ofNat_of_lt' (show c.val.toNat < 256 by omega)] at this
    exact value this.symm

/-- The bytes of a text have a line feed for each of its own. -/
theorem count_newline_utf8 (text : String) : (utf8 text).count newline = feeds text := by
  rw [utf8, feeds]
  induction text.toList with
  | nil => rfl
  | cons c cs ih =>
    -- only the line feed itself is encoded by that byte
    rw [List.flatMap_cons, List.count_append, count_newline_encode, ih, List.count_cons]
    simp only [beq_iff_eq]
    exact Nat.add_comm _ _

/-- Bytes up to a line feed are as many lines as they have line feeds. -/
theorem length_linesOf_append_newline (bytes rest : Bytes) :
    (linesOf (bytes ++ newline :: rest)).length
      = bytes.count newline + 1 + (linesOf rest).length := by
  induction bytes with
  | nil => rw [List.nil_append, linesOf, if_pos rfl, List.length_cons, List.count_nil]; omega
  | cons b bytes ih =>
    rw [List.cons_append, linesOf, List.count_cons]
    by_cases feed : b = newline
    · rw [if_pos feed, List.length_cons, ih, if_pos (beq_iff_eq.2 feed)]
      omega
    · -- the byte goes to a line that is there already
      rw [if_neg feed, if_neg (fun same => feed (beq_iff_eq.1 same)), Nat.add_zero, ← ih]
      cases others : linesOf (bytes ++ newline :: rest) with
      | nil =>
        rw [others, List.length_nil] at ih
        omega
      | cons line lines => rfl

/-- The bytes of a line, and then those of the others. -/
theorem lineBytes_cons (line : String) (rest : List String) :
    lineBytes (line :: rest) = utf8 line ++ newline :: lineBytes rest := by
  have feed : utf8 (line.push '\n') = utf8 line ++ [newline] := by
    simp [utf8, String.toList_push, newline, String.utf8EncodeChar]
  calc lineBytes (line :: rest)
      = utf8 (line.push '\n') ++ lineBytes rest := List.flatMap_cons
    _ = utf8 line ++ newline :: lineBytes rest := by
      rw [feed, List.append_assoc, List.singleton_append]

/-- **Cutting lines**: there are as many pieces as lines and line feeds inside the lines. -/
theorem length_linesOf_lineBytes (lines : List String) :
    (linesOf (lineBytes lines)).length = lines.length + (lines.map feeds).sum := by
  induction lines with
  | nil => rfl
  | cons line rest ih =>
    rw [lineBytes_cons, length_linesOf_append_newline, count_newline_utf8, ih, List.length_cons,
      List.map_cons, List.sum_cons]
    omega

/-- Lines without line feeds inside are cut where they end. -/
theorem linesOf_lineBytes {lines : List String} (each : ∀ line ∈ lines, OneLine line) :
    linesOf (lineBytes lines) = lines.map utf8 := by
  induction lines with
  | nil => rfl
  | cons line rest ih =>
    rw [List.forall_mem_cons] at each
    have inside : newline ∉ utf8 line := by
      rw [← List.count_eq_zero, count_newline_utf8]
      exact feeds_eq_zero_iff.2 each.1
    rw [lineBytes_cons, linesOf_append_newline inside, ih each.2, List.map_cons]

/-! ### Numbers -/

/-- Two texts one after the other are on one line iff both are. -/
@[simp] theorem oneLine_append {first second : String} :
    OneLine (first ++ second) ↔ OneLine first ∧ OneLine second := by
  simp [OneLine, not_or]

@[simp] theorem oneLine_ofList {cs : List Char} : OneLine (String.ofList cs) ↔ '\n' ∉ cs := by
  rw [OneLine, String.toList_ofList]

/-- A line feed is no digit. -/
theorem not_mem_of_isDigit {cs : List Char} (digits : ∀ c ∈ cs, c.isDigit = true) : '\n' ∉ cs :=
  fun member => absurd (digits _ member) (by decide)

theorem not_mem_toDigits (n : Nat) : '\n' ∉ Nat.toDigits 10 n :=
  not_mem_of_isDigit fun _ h => Nat.isDigit_of_mem_toDigits (by decide) (by decide) h

theorem oneLine_toString_nat (n : Nat) : OneLine (toString n) := by
  rw [OneLine]
  change '\n' ∉ n.repr.toList
  rw [Nat.toList_repr]
  exact not_mem_toDigits n

/-- An integer is printed on one line, with a sign or without. -/
theorem oneLine_toString_int (i : Int) : OneLine (toString i) := by
  cases i with
  | ofNat n => exact oneLine_toString_nat n
  | negSucc n =>
    change OneLine ("-" ++ toString (n + 1))
    rw [oneLine_append]
    exact ⟨by decide, oneLine_toString_nat (n + 1)⟩

end Text

open Text

/-! ### Reports -/

namespace Decimal

theorem digits_ofScaled (d : Nat) (k : Int) : '\n' ∉ (Digits.ofScaled d k).digits := by
  intro member
  -- zeros are dropped at the end, and nothing is added
  have member := (List.dropWhile_sublist _).subset (List.mem_reverse.1 member)
  exact not_mem_toDigits d (List.mem_reverse.1 member)

/-- The digits that the search ends with are some it has tried. -/
theorem digits_search (i : Interval) (power : Int) (fuel : Nat) :
    ∀ n, '\n' ∉ (i.search power fuel n).digits := by
  -- on the number of grids that are left
  induction fuel with
  | zero => exact fun _ => List.not_mem_nil
  | succ fuel ih =>
    intro n
    rw [Interval.search]
    split
    · exact digits_ofScaled _ _
    · exact ih (n + 1)

/-- The plain form of a number has its digits, zeros and a point. -/
theorem Digits.not_mem_positional {d : Digits} (h : '\n' ∉ d.digits) : '\n' ∉ d.positional := by
  unfold positional
  dsimp only
  split
  · simp [h, List.mem_replicate]
  split
  · -- the point stands among the digits
    have front : '\n' ∉ d.digits.take d.point.toNat := fun member => h (List.mem_of_mem_take member)
    have back : '\n' ∉ d.digits.drop d.point.toNat := fun member => h (List.mem_of_mem_drop member)
    simp [front, back]
  · simp [h, List.mem_replicate]

/-- The exponent form has its digits, a point and an exponent. -/
theorem Digits.not_mem_scientific {d : Digits} (h : '\n' ∉ d.digits) : '\n' ∉ d.scientific := by
  unfold scientific
  rw [List.mem_append, List.mem_cons, not_or, not_or]
  refine ⟨?_, by decide, oneLine_toString_int (d.point - 1)⟩
  -- a point may stand behind the first digit
  split
  · exact List.not_mem_nil
  · next c digits => rwa [digits] at h
  · next c rest _ digits =>
    rw [digits, List.mem_cons, not_or] at h
    simp [h]

/-- A double is written on one line if the words for the values without digits are on one. -/
theorem Layout.oneLine_write {l : Layout} (infinite : OneLine l.infinite)
    (undefined : OneLine l.undefined) (x : Float) : OneLine (l.write x) := by
  unfold write
  dsimp only
  -- a sign, then one of four forms
  have sign : '\n' ∉ if (fields x).1 then ['-'] else [] := by
    split <;> decide
  split
  · split
    · exact oneLine_append.2 ⟨oneLine_ofList.2 sign, infinite⟩
    · exact undefined
  split
  · rw [oneLine_ofList, List.mem_append, not_or]
    exact ⟨sign, by decide⟩
  · rw [oneLine_ofList, List.mem_append, not_or]
    refine ⟨sign, ?_⟩
    -- a finite number has digits, in the plain form or with an exponent
    have digits : '\n' ∉ (shortest (fields x).2.1 (fields x).2.2).digits := digits_search _ _ _ _
    rw [Layout.place]
    split
    · exact Digits.not_mem_positional digits
    · exact Digits.not_mem_scientific digits

end Decimal

/-- **The shape of a report**: three lines that are not blank, and a blank one, whatever its numbers
are. -/
theorem Cost.lines_shape (c : Cost) : ∃ first second third, c.lines = [first, second, third, ""] ∧
    ∀ line ∈ [first, second, third], OneLine line ∧ line ≠ "" := by
  refine ⟨_, _, _, rfl, ?_⟩
  have time : OneLine (milliseconds.write c.disk.time) :=
    Decimal.Layout.oneLine_write (by decide) (by decide) _
  -- each begins with words
  have worded : ∀ {words rest : String}, OneLine words → OneLine rest → words ≠ "" →
      OneLine (words ++ rest) ∧ words ++ rest ≠ "" := by
    intro words rest first second some
    refine ⟨oneLine_append.2 ⟨first, second⟩, fun empty => some ?_⟩
    exact (String.append_eq_empty_iff.1 empty).1
  simp only [List.forall_mem_cons, String.append_assoc]
  refine ⟨worded (by decide) ?_ (by decide), worded (by decide) ?_ (by decide),
    worded (by decide) (oneLine_toString_nat _) (by decide), nofun⟩
  · exact oneLine_append.2 ⟨oneLine_toString_nat _, by decide⟩
  · exact oneLine_append.2 ⟨time, by decide⟩

/-! ### Cells -/

/-- A value is printed on one line if it is a number or a text that is on one. -/
theorem Value.oneLine_print {v : Value} (text : ∀ s, v = .text s → OneLine s) :
    OneLine v.print := by
  cases v with
  | int i => exact oneLine_toString_int _
  | text s => exact text s rfl

namespace Renderer

/-- A cell has the characters of its text, some of them or all, and spaces. -/
theorem oneLine_cell {r : Renderer} {text : String} (h : OneLine text) : OneLine (r.cell text) := by
  unfold cell
  dsimp only
  rw [oneLine_ofList, List.mem_append, not_or]
  constructor
  · split
    · exact fun member => h (List.mem_of_mem_take member)
    · exact h
  · exact fun space => absurd (List.eq_of_mem_replicate space) (by decide)

/-- A line of cells is on one line if all of its texts are. -/
theorem oneLine_cells {r : Renderer} {texts : List String} (each : ∀ text ∈ texts, OneLine text) :
    OneLine (r.cells texts) := by
  rw [cells, OneLine, String.toList_join, List.mem_flatMap]
  rintro ⟨cell, member, feed⟩
  obtain ⟨text, there, rfl⟩ := List.mem_map.1 member
  exact oneLine_cell (each text there) feed

end Renderer

end RelEngine
