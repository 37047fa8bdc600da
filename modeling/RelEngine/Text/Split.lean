/-!
# Splitting a name at its first separator

References and stored names carry at most one qualifier: `table.column` as written, `table#column`
as stored. `splitAtFirst` cuts a text at the first occurrence of a separator; it answers `none`
exactly when the separator does not occur.

* `splitAtFirst_eq_none_iff` — when there is nothing to split;
* `splitAtFirst_eq_some_iff` — what the two parts are.
-/

namespace RelEngine.Text

/-- The parts before and after the first `sep`, if `sep` occurs. -/
def cutAt (sep : Char) : List Char → Option (List Char × List Char)
  | [] => none
  | c :: rest =>
    if c = sep then some ([], rest) else (cutAt sep rest).map fun p => (c :: p.1, p.2)

/-- A text is not cut exactly when it does not hold the separator. -/
theorem cutAt_eq_none_iff {sep : Char} {s : List Char} : cutAt sep s = none ↔ sep ∉ s := by
  induction s with
  | nil => simp [cutAt]
  | cons c rest ih =>
    by_cases h : c = sep
    · simp [cutAt, h]
    · simp [cutAt, h, ih, Ne.symm h]

/-- The first part of a cut holds no separator, and the parts make up the text. -/
theorem cutAt_eq_some_iff {sep : Char} {s l r : List Char} :
    cutAt sep s = some (l, r) ↔ sep ∉ l ∧ s = l ++ sep :: r := by
  induction s generalizing l with
  | nil => simp [cutAt]
  | cons c rest ih =>
    -- the separator at the head ends the first part, and any other character belongs to it
    by_cases h : c = sep
    · subst h
      constructor
      · rintro h
        obtain ⟨rfl, rfl⟩ : [] = l ∧ rest = r := by simpa [cutAt] using h
        simp
      · rintro ⟨hl, hs⟩
        cases l with
        | nil => simpa [cutAt] using hs
        | cons d l => simp at hs hl; exact absurd hs.1 hl.1
    · constructor
      · intro hc
        rw [cutAt, if_neg h, Option.map_eq_some_iff] at hc
        obtain ⟨p, hp, hlr⟩ := hc
        obtain ⟨rfl, rfl⟩ := Prod.mk.inj hlr
        obtain ⟨hl, hs⟩ := ih.1 hp
        exact ⟨by simp [hl, Ne.symm h], by rw [hs]; rfl⟩
      · rintro ⟨hl, hs⟩
        cases l with
        | nil => simp at hs; exact absurd hs.1 h
        | cons d l =>
          simp only [List.cons_append, List.cons.injEq] at hs
          obtain ⟨rfl, hs⟩ := hs
          have : cutAt sep rest = some (l, r) := ih.2 ⟨fun m => hl (by simp [m]), hs⟩
          simp [cutAt, h, this]

/-- The parts of a string before and after the first `sep`, if `sep` occurs. -/
def splitAtFirst (sep : Char) (s : String) : Option (String × String) :=
  (cutAt sep s.toList).map fun p => (String.ofList p.1, String.ofList p.2)

/-- A string is not split exactly when it does not hold the separator. -/
theorem splitAtFirst_eq_none_iff {sep : Char} {s : String} :
    splitAtFirst sep s = none ↔ sep ∉ s.toList := by
  simp [splitAtFirst, cutAt_eq_none_iff]

/-- The first part of a split holds no separator, and the parts make up the string. -/
theorem splitAtFirst_eq_some_iff {sep : Char} {s l r : String} :
    splitAtFirst sep s = some (l, r) ↔
      sep ∉ l.toList ∧ s.toList = l.toList ++ sep :: r.toList := by
  constructor
  · intro h
    obtain ⟨p, hp, he⟩ := Option.map_eq_some_iff.1 h
    obtain ⟨rfl, rfl⟩ := Prod.mk.inj he
    simpa using cutAt_eq_some_iff.1 hp
  · intro h
    simp [splitAtFirst, cutAt_eq_some_iff.2 h]

end RelEngine.Text
