import Mathlib.Data.List.Perm.Subperm
import RelEngine.Proofs.References

/-!
# Rows as named values

A row holds its values in the order of its schema. What a reference fetches from it does not depend
on that order, but only on which value stands under which stored name (`Row.named`): the three steps
of resolution look for one name that is fixed, or for the only one of a kind. So rows with the same
named values in different orders, as different schemas have them, give the same value or the same
error for each reference (`Row.get_eq_of_perm`), and a condition has the same truth or the same error
on them (`Condition.holds_eq_of_perm`).

A row is compared with one under another order by taking its values name by name (`Row.arranged`).
For names that the two schemas share, this gives the values of the other row exactly when both have
the same named values (`Row.arranged_eq_values_iff`).
-/

namespace RelEngine

/-- What is looked up does not depend on the order of the pairs. -/
theorem lookup_eq_of_perm {α : Type} {pairs pairs' : List (String × α)}
    (nodup : (pairs.map Prod.fst).Nodup) (same : pairs'.Perm pairs) (key : String) :
    pairs'.lookup key = pairs.lookup key := by
  have nodup' : (pairs'.map Prod.fst).Nodup := (same.map Prod.fst).nodup_iff.2 nodup
  ext a
  rw [lookup_eq_some_iff_mem nodup, lookup_eq_some_iff_mem nodup', same.mem_iff]

namespace Row

/-! ### Named values -/

/-- **The named values of a row**: each value with the name of its field. -/
def named (row : Row) : List (String × Value) := row.schema.names.zip row.values

/-- The values of a row, name by name. -/
def arranged (row : Row) (names : List String) : List Value :=
  names.filterMap fun name => row.named.lookup name

/-- The pairs stand at the places of the schema. -/
theorem named_eq_map (row : Row) : row.named
    = (List.finRange row.schema.size).map fun i => ((row.schema.field i).name, row.value i) := by
  rw [named, Schema.names_eq_map_field, values_eq_map_value, List.zip_map']

theorem map_fst_named (row : Row) : row.named.map Prod.fst = row.schema.names := by
  rw [named_eq_map, List.map_map, Schema.names_eq_map_field]
  rfl

/-- No name has two values. -/
theorem nodup_named (row : Row) : (row.named.map Prod.fst).Nodup := by
  rw [map_fst_named]
  exact row.schema.names_nodup

/-- A pair is a name and the value at its place. -/
theorem mem_named_iff {row : Row} {name : String} {v : Value} :
    (name, v) ∈ row.named ↔
      ∃ i, (row.schema.field i).name = name ∧ row.value i = v := by
  rw [named_eq_map, List.mem_map]
  simp

/-- The value under a stored name is the one at the place of that name. -/
theorem lookup_named (row : Row) (name : String) :
    row.named.lookup name = (row.schema.stored? name).map row.value := by
  ext v
  rw [lookup_eq_some_iff_mem row.nodup_named, mem_named_iff, Option.map_eq_some_iff]
  simp only [Schema.stored?_eq_some_iff]

theorem lookup_named_field (row : Row) (i : Fin row.schema.size) :
    row.named.lookup (row.schema.field i).name = some (row.value i) := by
  rw [lookup_named, Schema.stored?_eq_some_iff.2 rfl]
  rfl

/-! ### References -/

/-- What a reference fetches from named values. -/
def fetch (pairs : List (String × Value)) (reference : String) : Except Error Value :=
  match pairs.lookup reference with
  | some v => .ok v
  | none =>
    match Text.splitAtFirst referencePoint reference with
    | some (table, column) =>
      match pairs.lookup (qualify table column) with
      | some v => .ok v
      | none => .error (.columnNotFound reference)
    | none =>
      match pairs.filter fun p => p.1.toList.contains qualifier && columnPart p.1 == reference with
      | [] => .error (.columnNotFound reference)
      | [p] => .ok p.2
      | _ :: _ :: _ => .error (.ambiguousColumn reference)

/-- **References see named values only.** -/
theorem get_eq_fetch (row : Row) (reference : String) :
    row.get reference = fetch row.named reference := by
  have carrying : (row.named.filter fun p =>
        p.1.toList.contains qualifier && columnPart p.1 == reference)
      = (row.schema.carrying reference).map fun i =>
        ((row.schema.field i).name, row.value i) := by
    rw [named_eq_map, List.filter_map]
    rfl
  rw [get, Schema.position, fetch, lookup_named]
  cases row.schema.stored? reference with
  | some i => rfl
  | none =>
    dsimp only [Option.map_none]
    cases Text.splitAtFirst referencePoint reference with
    | some parts =>
      dsimp only
      rw [lookup_named]
      cases row.schema.stored? (qualify parts.1 parts.2) <;> rfl
    | none =>
      dsimp only
      rw [carrying]
      -- none, one or several qualified fields have this column part
      rcases row.schema.carrying reference with _ | ⟨i, _ | ⟨j, rest⟩⟩ <;> rfl

/-- **Fetching does not depend on the order** of the pairs. The rules ask whether a name is stored,
and whether one qualified name alone has a column part, and neither has to do with places. -/
theorem fetch_eq_of_perm {pairs pairs' : List (String × Value)}
    (nodup : (pairs.map Prod.fst).Nodup) (same : pairs'.Perm pairs) (reference : String) :
    fetch pairs' reference = fetch pairs reference := by
  -- the qualified names with the column part are rearranged along
  have carrying := same.filter fun p : String × Value =>
    p.1.toList.contains qualifier && columnPart p.1 == reference
  unfold fetch
  rw [lookup_eq_of_perm nodup same reference]
  cases pairs.lookup reference with
  | some v => rfl
  | none =>
    cases Text.splitAtFirst referencePoint reference with
    | some parts =>
      dsimp only
      rw [lookup_eq_of_perm nodup same (qualify parts.1 parts.2)]
    | none =>
      dsimp only
      generalize pairs.filter _ = found at carrying
      generalize pairs'.filter _ = found' at carrying
      -- none, one or several of them, on both sides alike
      match found, found', carrying with
      | [], [], _ => rfl
      | [p], [p'], h =>
        obtain rfl : p' = p := List.singleton_perm_singleton.1 h
        rfl
      | _ :: _ :: _, _ :: _ :: _, _ => rfl
      | [], _ :: _, h => cases h.length_eq
      | _ :: _, [], h => cases h.length_eq
      | [_], _ :: _ :: _, h => cases h.length_eq
      | _ :: _ :: _, [_], h => cases h.length_eq

variable {row row' : Row}

/-- So rows with the same named values give the same value, or the same error, for every reference.
-/
theorem get_eq_of_perm (same : row'.named.Perm row.named) (reference : String) :
    row'.get reference = row.get reference := by
  rw [get_eq_fetch, get_eq_fetch]
  exact fetch_eq_of_perm row.nodup_named same reference

/-! ### Arranging values -/

/-- Put in the order of the other row, the values are those of that row. -/
theorem arranged_of_perm (same : row'.named.Perm row.named) :
    row'.arranged row.schema.names = row.values := by
  -- name by name, permuted rows have the same value under it
  calc row'.arranged row.schema.names
      = row.schema.names.filterMap fun name => row.named.lookup name := by
        unfold arranged
        congr 1
        ext1 name
        exact lookup_eq_of_perm row.nodup_named same name
    _ = (List.finRange row.schema.size).filterMap fun i => some (row.value i) := by
        rw [Schema.names_eq_map_field, List.filterMap_map]
        congr 1
        ext1 i
        exact row.lookup_named_field i
    _ = row.values := by
        rw [List.filterMap_eq_map', ← values_eq_map_value]

/-- **Rearranging a row** under names that both schemas have gives the values of the other row
exactly when the two have the same named values. -/
theorem arranged_eq_values_iff (names : row'.schema.names.Perm row.schema.names) :
    row'.arranged row.schema.names = row.values ↔ row'.named.Perm row.named := by
  refine ⟨fun rearranged => ?_, arranged_of_perm⟩
  -- each name of the one row stands in the other with some value
  have total : ∀ i, ∃ v, row'.named.lookup (row.schema.field i).name = some v := by
    intro i
    have member : (row.schema.field i).name ∈ row'.named.map Prod.fst := by
      rw [map_fst_named, names.mem_iff, Schema.names]
      exact List.mem_map_of_mem (List.getElem_mem i.2)
    obtain ⟨⟨_, v⟩, there, rfl⟩ := List.mem_map.1 member
    exact ⟨v, (lookup_eq_some_iff_mem row'.nodup_named).2 there⟩
  choose w found using total
  have values : (List.finRange row.schema.size).map w
      = (List.finRange row.schema.size).map row.value := by
    rw [← values_eq_map_value, ← rearranged, arranged, Schema.names_eq_map_field, List.filterMap_map,
      ← List.filterMap_eq_map']
    congr 1
    ext1 i
    exact (found i).symm
  -- so all named values of the one row are among those of the other, which has no more
  have subset : row.named ⊆ row'.named := by
    rintro ⟨name, v⟩ member
    obtain ⟨i, rfl, rfl⟩ := mem_named_iff.1 member
    rw [← List.map_inj_left.1 values i (List.mem_finRange i)]
    exact (lookup_eq_some_iff_mem row'.nodup_named).1 (found i)
  have length : row'.named.length = row.named.length := by
    have fields := congrArg List.length row.map_fst_named
    have fields' := congrArg List.length row'.map_fst_named
    rw [List.length_map] at fields fields'
    rw [fields, fields', names.length_eq]
  have distinct : row.named.Nodup := List.Nodup.of_map _ row.nodup_named
  exact ((List.subperm_of_subset distinct subset).perm_of_length_le length.le).symm

end Row

/-! ### Conditions -/

namespace Condition

variable {row row' : Row}

/-- **Conditions see named values only**: they have the same truth value or the same error. -/
theorem holds_eq_of_perm (same : row'.named.Perm row.named) (c : Condition) :
    c.holds row' = c.holds row := by
  have denotes : ∀ operand, denote row' operand = denote row operand := by
    intro operand
    rw [denote, denote, Row.get_eq_of_perm same]
  induction c with
  | equal l r => rw [holds, holds, denotes, denotes]
  | and a b iha ihb => rw [holds, holds, iha, ihb]
  | or a b iha ihb => rw [holds, holds, iha, ihb]

theorem admits_eq_of_perm (same : row'.named.Perm row.named) (selection : Option Condition) :
    admits selection row' = admits selection row := by
  cases selection with
  | none => rfl
  | some c => exact holds_eq_of_perm same c

end Condition

end RelEngine
