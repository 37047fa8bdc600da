import RelEngine.Proofs.NameResolution

/-!
# What a reference names

The three rules by which a reference names a field of a schema are stated here as a relation between
references and places (`Schema.Names`): a stored name names its field, `table.column` names the field
stored as `table#column`, and a column part that one qualified field alone has names that field. Each
rule says under which conditions the rules before it do not apply, so that a reference names one field
at most. `Schema.position` finds the place of that field and no other
(`position_eq_ok_iff_names`).

In a schema without qualified names the last two rules have nothing to name. There a reference is a
stored name or names nothing (`position_eq_ok_iff_of_plain`, `position_eq_error_of_plain`).
-/

namespace RelEngine.Schema

variable {s : Schema} {reference : String}

/-- **What a reference names**: the place of a field. -/
inductive Names (s : Schema) : String → Nat → Prop
  /-- A stored name names its own field. -/
  | stored {f : Field} {i : Nat} (there : s.fields[i]? = some f) : Names s f.name i
  /-- What stands before the first point is a table, and what stands behind it a column. -/
  | point {table column : String} {f : Field} {i : Nat}
      (unstored : table ++ "." ++ column ∉ s.names) (first : referencePoint ∉ table.toList)
      (there : s.fields[i]? = some f) (name : f.name = qualify table column) :
      Names s (table ++ "." ++ column) i
  /-- A column part without a point names the one qualified field that has it. -/
  | column {f : Field} {i : Nat} (unstored : columnPart f.name ∉ s.names)
      (bare : referencePoint ∉ (columnPart f.name).toList) (there : s.fields[i]? = some f)
      (qualified : qualifier ∈ f.name.toList)
      (only : ∀ j g, s.fields[j]? = some g → qualifier ∈ g.name.toList →
        columnPart g.name = columnPart f.name → j = i) :
      Names s (columnPart f.name) i

theorem getElem?_field (i : Fin s.size) : s.fields[i.1]? = some (s.field i) :=
  List.getElem?_eq_getElem i.2

/-- A stored name has a place. -/
theorem exists_place_of_mem_names {name : String} (member : name ∈ s.names) :
    ∃ i : Fin s.size, (s.field i).name = name := by
  obtain ⟨f, stored, rfl⟩ := List.mem_map.1 member
  obtain ⟨k, within, rfl⟩ := List.getElem_of_mem stored
  exact ⟨⟨k, within⟩, rfl⟩

/-- A name is looked for among the names of the schema. -/
theorem stored?_eq_none_iff_not_mem {name : String} : s.stored? name = none ↔ name ∉ s.names := by
  rw [stored?_eq_none_iff, names, List.mem_map, not_exists]
  exact forall_congr' fun f => not_and.symm

/-- The places with a column part are those of the qualified names that end in it. -/
theorem mem_carrying_iff {column : String} {i : Fin s.size} :
    i ∈ s.carrying column ↔
      qualifier ∈ (s.field i).name.toList ∧ columnPart (s.field i).name = column := by
  simp [carrying]

theorem nodup_carrying (s : Schema) (column : String) : (s.carrying column).Nodup :=
  (List.nodup_finRange s.size).filter _

/-- One field alone carries a column part exactly when no other qualified field has it. -/
theorem carrying_eq_singleton_iff {column : String} {i : Fin s.size} :
    s.carrying column = [i] ↔
      qualifier ∈ (s.field i).name.toList ∧ columnPart (s.field i).name = column ∧
        ∀ j g, s.fields[j]? = some g → qualifier ∈ g.name.toList → columnPart g.name = column →
          j = i.1 := by
  constructor
  · intro h
    have member : i ∈ s.carrying column := by simp [h]
    obtain ⟨qualified, part⟩ := mem_carrying_iff.1 member
    refine ⟨qualified, part, fun j g there qualified' part' => ?_⟩
    -- another such field would be a second place
    obtain ⟨within, rfl⟩ := List.getElem?_eq_some_iff.1 there
    have member' : (⟨j, within⟩ : Fin s.size) ∈ s.carrying column :=
      mem_carrying_iff.2 ⟨qualified', part'⟩
    rw [h, List.mem_singleton] at member'
    rw [← member']
  · rintro ⟨qualified, part, only⟩
    -- the places have no repeats, so they are told by their members
    refine List.perm_singleton.1 ((List.perm_ext_iff_of_nodup (s.nodup_carrying column)
      (List.nodup_singleton i)).2 fun j => ?_)
    rw [mem_carrying_iff, List.mem_singleton]
    constructor
    · rintro ⟨qualified', part'⟩
      exact Fin.ext (only j.1 _ (getElem?_field j) qualified' part')
    · rintro rfl
      exact ⟨qualified, part⟩

/-- A reference that is cut at its first point has no earlier one. -/
theorem eq_of_splitAtFirst {table column : String}
    (h : Text.splitAtFirst referencePoint reference = some (table, column)) :
    referencePoint ∉ table.toList ∧ reference = table ++ "." ++ column := by
  obtain ⟨first, parts⟩ := Text.splitAtFirst_eq_some_iff.1 h
  refine ⟨first, String.toList_inj.1 ?_⟩
  rw [parts, String.toList_append, String.toList_append, List.append_assoc]
  rfl

/-- **The place a reference resolves to** is that of the field that it names. -/
theorem position_eq_ok_iff_names {i : Fin s.size} :
    s.position reference = .ok i ↔ s.Names reference i.1 := by
  constructor
  · intro h
    unfold position at h
    split at h
    · next j found =>
      obtain rfl : j = i := Except.ok.inj h
      rw [← stored?_eq_some_iff.1 found]
      exact .stored (getElem?_field j)
    · next unfound =>
      have unstored := stored?_eq_none_iff_not_mem.1 unfound
      split at h
      · next table column cut =>
        -- a reference with a point
        obtain ⟨first, rfl⟩ := eq_of_splitAtFirst cut
        split at h
        · next j found =>
          obtain rfl : j = i := Except.ok.inj h
          exact .point unstored first (getElem?_field j) (stored?_eq_some_iff.1 found)
        · cases h
      · next uncut =>
        -- a bare reference
        split at h
        · cases h
        · next j carrying =>
          obtain rfl : j = i := Except.ok.inj h
          obtain ⟨qualified, rfl, only⟩ := carrying_eq_singleton_iff.1 carrying
          exact .column unstored (Text.splitAtFirst_eq_none_iff.1 uncut) (getElem?_field j) qualified
            only
        · cases h
  · intro h
    generalize place : i.1 = n at h
    cases h with
    | stored there =>
      rw [← place, getElem?_field] at there
      rw [← Option.some.inj there]
      exact s.position_of_stored i
    | point unstored first there name =>
      rw [← place, getElem?_field] at there
      rw [← Option.some.inj there] at name
      exact position_point (stored?_eq_none_iff.1 (stored?_eq_none_iff_not_mem.2 unstored)) first
        name
    | column unstored bare there qualified only =>
      rw [← place, getElem?_field] at there
      obtain rfl := Option.some.inj there
      subst place
      rw [position, stored?_eq_none_iff_not_mem.2 unstored, Text.splitAtFirst_eq_none_iff.2 bare]
      dsimp only
      rw [carrying_eq_singleton_iff.2 ⟨qualified, rfl, only⟩]

/-- What a reference names is a place of the schema. -/
theorem Names.lt_size {i : Nat} (h : s.Names reference i) : i < s.size := by
  cases h with
  | stored there => exact (List.getElem?_eq_some_iff.1 there).1
  | point _ _ there _ => exact (List.getElem?_eq_some_iff.1 there).1
  | column _ _ there _ _ => exact (List.getElem?_eq_some_iff.1 there).1

/-- A reference names one field at most. -/
theorem Names.unique {i j : Nat} (h : s.Names reference i) (h' : s.Names reference j) : i = j := by
  have here := position_eq_ok_iff_names (i := ⟨i, h.lt_size⟩).2 h
  have there := position_eq_ok_iff_names (i := ⟨j, h'.lt_size⟩).2 h'
  rw [here] at there
  exact congrArg Fin.val (Except.ok.inj there)

/-- Without qualified names in the schema, a reference that is no stored name names nothing. -/
theorem position_eq_error_of_plain (plain : ∀ f ∈ s.fields, qualifier ∉ f.name.toList)
    (unstored : reference ∉ s.names) :
    s.position reference = .error (.columnNotFound reference) := by
  rw [position, stored?_eq_none_iff_not_mem.2 unstored]
  dsimp only
  split
  · next table column cut =>
    -- a qualified name would have the qualifier in it
    have unfound : s.stored? (qualify table column) = none := by
      refine stored?_eq_none_iff.2 fun f hf same => plain f hf ?_
      rw [same, qualify, String.toList_ofList]
      simp
    rw [unfound]
  · -- and so would every name that is found by its column part
    have none : s.carrying reference = [] := by
      refine List.eq_nil_iff_forall_not_mem.2 fun i member => ?_
      exact plain _ (List.getElem_mem i.2) (mem_carrying_iff.1 member).1
    rw [none]

/-- There only a field's own name resolves to it. -/
theorem position_eq_ok_iff_of_plain (plain : ∀ f ∈ s.fields, qualifier ∉ f.name.toList)
    {i : Fin s.size} : s.position reference = .ok i ↔ reference = (s.field i).name := by
  constructor
  · intro position
    by_cases stored : reference ∈ s.names
    · obtain ⟨j, rfl⟩ := exists_place_of_mem_names stored
      rw [s.position_of_stored j] at position
      rw [Except.ok.inj position]
    · rw [position_eq_error_of_plain plain stored] at position
      cases position
  · rintro rfl
    exact s.position_of_stored i

/-- A bare reference that two places carry is ambiguous. -/
theorem position_eq_ambiguous_of_two (bare : referencePoint ∉ reference.toList)
    (unstored : reference ∉ s.names) {i j : Fin s.size} (differ : i ≠ j)
    (here : i ∈ s.carrying reference) (there : j ∈ s.carrying reference) :
    s.position reference = .error (.ambiguousColumn reference) := by
  rw [position, stored?_eq_none_iff_not_mem.2 unstored, Text.splitAtFirst_eq_none_iff.2 bare]
  dsimp only
  rcases carrying : s.carrying reference with _ | ⟨first, _ | ⟨second, others⟩⟩
  · rw [carrying] at here
    exact absurd here List.not_mem_nil
  · -- a single place is not two
    rw [carrying] at here there
    exact absurd ((List.mem_singleton.1 here).trans (List.mem_singleton.1 there).symm) differ
  · rfl

end RelEngine.Schema
