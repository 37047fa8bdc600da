import RelEngine.Storage.Relation

/-!
# The catalog

The catalog holds the stored tables, each under a key, no two under one key. `Catalog.find?` is the
view through which it is described: what registering, dropping and replacing a table do to each
name. That a table lies under its own name is no part of the type; it holds of the catalogs that the
engine makes.

* `find?_insert`, `find?_erase`, `find?_replace` — the three changes through the view;
* `find?_eq_some_iff` — what is found is what is stored.
-/

namespace RelEngine

/-- What is looked up by a key that stands there once is what is stored under it. -/
theorem lookup_eq_some_iff_mem {α : Type} {pairs : List (String × α)}
    (nodup : (pairs.map Prod.fst).Nodup) {key : String} {a : α} :
    pairs.lookup key = some a ↔ (key, a) ∈ pairs := by
  rw [List.lookup_eq_some_iff]
  constructor
  · rintro ⟨before, after, rfl, -⟩
    simp
  · intro member
    obtain ⟨before, after, rfl⟩ := List.append_of_mem member
    refine ⟨before, after, rfl, fun p hp => bne_iff_ne.2 fun same => ?_⟩
    -- the key stands before already
    rw [List.map_append, List.map_cons, List.nodup_append] at nodup
    exact nodup.2.2 p.1 (List.mem_map_of_mem hp) key List.mem_cons_self same.symm

/-- **The catalog**: stored tables, no two under one key. -/
structure Catalog where
  entries : List (String × Relation)
  keys_nodup : (entries.map Prod.fst).Nodup
deriving DecidableEq, Repr

namespace Catalog

/-- A catalog without tables. -/
def empty : Catalog := ⟨[], List.nodup_nil⟩

/-- The table under a name. -/
def find? (c : Catalog) (name : String) : Option Relation := c.entries.lookup name

/-- The table under a name, which has to exist. -/
def find (c : Catalog) (name : String) : Except Error Relation :=
  match c.find? name with
  | some r => .ok r
  | none => .error (.tableNotFound name)

/-- Nothing is found exactly under the names that are no key. -/
theorem find?_eq_none_iff {c : Catalog} {name : String} :
    c.find? name = none ↔ name ∉ c.entries.map Prod.fst := by
  simp only [find?, List.lookup_eq_none_iff, List.mem_map, not_exists, not_and, bne_iff_ne]
  exact ⟨fun h p hp e => h p hp e.symm, fun h p hp e => h p hp e.symm⟩

/-- What is found under a name is what is stored under it. -/
theorem find?_eq_some_iff {c : Catalog} {name : String} {r : Relation} :
    c.find? name = some r ↔ (name, r) ∈ c.entries :=
  lookup_eq_some_iff_mem c.keys_nodup

/-- The catalog with a new table under a key that is still free. -/
def insert (c : Catalog) (name : String) (r : Relation) (free : c.find? name = none) : Catalog :=
  ⟨c.entries ++ [(name, r)], by
    rw [List.map_append, List.nodup_append]
    refine ⟨c.keys_nodup, by simp, ?_⟩
    rintro a ha b hb rfl
    rw [List.map_singleton, List.mem_singleton] at hb
    subst hb
    exact find?_eq_none_iff.1 free ha⟩

/-- **Registering a table**: the name has to be free and the fields have to make a schema. -/
def register (c : Catalog) (name : String) (fields : List Field) : Except Error Catalog :=
  match free : c.find? name with
  | some _ => .error (.tableExists name)
  | none =>
    match Schema.ofFields fields with
    | .error e => .error e
    | .ok schema => .ok (c.insert name (.empty name schema) free)

/-- The catalog without the table under a name. -/
def erase (c : Catalog) (name : String) : Catalog :=
  ⟨c.entries.filter (·.1 != name),
    List.Nodup.sublist (List.Sublist.map _ (List.filter_sublist ..)) c.keys_nodup⟩

/-- **Dropping a table**: what is left, and the table that was dropped. -/
def drop (c : Catalog) (name : String) : Except Error (Catalog × Relation) := do
  let r ← c.find name
  .ok (c.erase name, r)

/-- The catalog with a table in the place of the one under a name. -/
def replace (c : Catalog) (name : String) (r : Relation) : Catalog :=
  ⟨c.entries.map fun old => if old.1 = name then (old.1, r) else old, by
    have same : (c.entries.map fun old => if old.1 = name then (old.1, r) else old).map Prod.fst
        = c.entries.map Prod.fst := by
      rw [List.map_map]
      apply List.map_congr_left
      intro old _
      by_cases h : old.1 = name <;> simp [h]
    rw [same]; exact c.keys_nodup⟩

/-! ### The changes through the view -/

/-- A new table is found under its key, all others as before. -/
theorem find?_insert {c : Catalog} {key : String} {r : Relation} (free : c.find? key = none)
    (name : String) :
    (c.insert key r free).find? name = if name = key then some r else c.find? name := by
  have append : (c.insert key r free).entries = c.entries ++ [(key, r)] := rfl
  ext found
  rw [find?_eq_some_iff, append, List.mem_append, List.mem_singleton, ← find?_eq_some_iff]
  by_cases h : name = key
  · subst h
    simp [free, eq_comm]
  · simp [h]

/-- An erased name finds nothing, all others what they found before. -/
theorem find?_erase (c : Catalog) (erased name : String) :
    (c.erase erased).find? name = if name = erased then none else c.find? name := by
  have filtered : (c.erase erased).entries = c.entries.filter (·.1 != erased) := rfl
  ext found
  rw [find?_eq_some_iff, filtered, List.mem_filter, ← find?_eq_some_iff]
  by_cases h : name = erased <;> simp [h]

/-- A replaced table is found under its key, all others as before. -/
theorem find?_replace {c : Catalog} {key : String} {old : Relation} (there : c.find? key = some old)
    (r : Relation) (name : String) :
    (c.replace key r).find? name = if name = key then some r else c.find? name := by
  have mapped : (c.replace key r).entries =
      c.entries.map fun old => if old.1 = key then (old.1, r) else old := rfl
  -- the keys stay, so what is stored under a name is looked up as before
  ext found
  rw [find?_eq_some_iff, mapped, List.mem_map]
  constructor
  · rintro ⟨p, stored, becomes⟩
    by_cases hp : p.1 = key
    · rw [if_pos hp] at becomes
      obtain ⟨rfl, rfl⟩ := Prod.mk.inj becomes
      rw [if_pos hp]
    · rw [if_neg hp] at becomes
      subst becomes
      rw [if_neg hp]
      exact find?_eq_some_iff.2 stored
  · intro h
    by_cases hn : name = key
    · subst hn
      rw [if_pos rfl] at h
      refine ⟨(name, old), find?_eq_some_iff.1 there, ?_⟩
      rw [if_pos rfl, Option.some.inj h]
    · rw [if_neg hn] at h
      exact ⟨(name, found), find?_eq_some_iff.1 h, if_neg hn⟩

/-- Putting back what is there changes nothing. -/
theorem replace_self {c : Catalog} {key : String} {r : Relation} (there : c.find? key = some r) :
    c.replace key r = c := by
  obtain ⟨entries, keys_nodup⟩ := c
  have same : ∀ p ∈ entries, (if p.1 = key then (p.1, r) else p) = id p := by
    intro p stored
    by_cases hp : p.1 = key
    · subst hp
      have found : some p.2 = some r := by rw [← there, find?_eq_some_iff.2 stored]
      rw [if_pos rfl, ← Option.some.inj found, id]
    · rw [if_neg hp, id]
  unfold replace
  congr 1
  rw [List.map_congr_left same, List.map_id]

end Catalog

end RelEngine
