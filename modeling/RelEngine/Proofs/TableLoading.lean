import RelEngine.Proofs.History
import RelEngine.Proofs.Locality

/-!
# Loading a table

What a single insertion costs hangs on the rows that are there. Behind full blocks it writes a new
block, else it reads the last block and writes it back. Over a run the two prices add up to a number
that needs no look at the rows in between.

The blocks of the table serve as a potential. The insertion for one block adds a block to the table,
and the one for two adds none, so that cost and blocks together go up by two either way
(`blocksFor_succ`, `Relation.loadedTo_append`). Nothing else changes the table, as long as no
statement that is carried out takes rows from it: what fails changes nothing, and what is about
other tables leaves this one alone. So `n` insertions cost `2 n` less the blocks that the table has
grown by.

* `Relation.LoadedTo` — what a run has made of a table, and for which charges;
* `Engine.exists_loadedTo` — every run that takes nothing from a table loads it;
* `Engine.loading_cost` — the charges of a run in closed form.
-/

namespace RelEngine

/-! ### Blocks of growing tables -/

/-- One row more begins a block when the others fill theirs. -/
theorem blocksFor_succ (rows fields : Nat) :
    blocksFor (rows + 1) fields
      = blocksFor rows fields + if max 1 (8 / fields) ∣ rows then 1 else 0 := by
  unfold blocksFor
  -- how many rows share a block does not hang on their number
  set k := max 1 (8 / fields)
  have pos : 1 ≤ k := Nat.le_max_left ..
  have shifted : rows + k - 1 + 1 = rows + k := by omega
  calc (rows + 1) ⌈/⌉ k = (rows + 1 + k - 1) / k := Nat.ceilDiv_eq_add_pred_div ..
    _ = (rows + k - 1 + 1) / k := by congr 1; omega
    _ = (rows + k - 1) / k + if k ∣ rows + k then 1 else 0 := by rw [Nat.succ_div, shifted]
    _ = rows ⌈/⌉ k + if k ∣ rows then 1 else 0 := by
        rw [Nat.ceilDiv_eq_add_pred_div]
        simp only [Nat.dvd_add_self_right]

/-- **A table loaded for some charges**: one row for each of them, and all of them together cost two
blocks each, less the blocks that have been begun. -/
structure Relation.LoadedTo (r r' : Relation) (charges : List Nat) : Prop where
  schema : r'.schema = r.schema
  rows : r'.rows.length = r.rows.length + charges.length
  cost : charges.sum + r'.blocks = 2 * charges.length + r.blocks

namespace Relation

variable {r r' r'' : Relation}

/-- A table is loaded from itself for no charges. -/
theorem LoadedTo.refl (r : Relation) : r.LoadedTo r [] := ⟨rfl, rfl, by simp⟩

/-- What loads a table twice loads it for both charges. -/
theorem LoadedTo.trans {charges charges' : List Nat} (h : r.LoadedTo r' charges)
    (h' : r'.LoadedTo r'' charges') : r.LoadedTo r'' (charges ++ charges') where
  schema := h'.schema.trans h.schema
  rows := by
    rw [h'.rows, h.rows, List.length_append, Nat.add_assoc]
  cost := by
    have first := h.cost
    have second := h'.cost
    rw [List.sum_append, List.length_append]
    omega

/-- One row more for one block or two, as the last block has room. -/
theorem loadedTo_append (r : Relation) (row : Row) :
    r.LoadedTo (r.append row) [if r.lastBlockPartial then 2 else 1] where
  schema := rfl
  rows := List.length_append
  cost := by
    have grown : (r.append row).blocks
        = r.blocks + if max 1 (8 / r.schema.fields.length) ∣ r.rows.length then 1 else 0 := by
      rw [blocks, append, List.length_append]
      exact blocksFor_succ ..
    rw [grown, List.sum_singleton, List.length_singleton]
    by_cases full : max 1 (8 / r.schema.fields.length) ∣ r.rows.length
    · -- one for the block that the row begins
      have none : ¬ r.lastBlockPartial = true := fun room => lastBlockPartial_iff.1 room full
      rw [if_neg none, if_pos full]
      omega
    · -- two for the last block, read and written back with the row
      rw [if_pos (lastBlockPartial_iff.2 full), if_neg full]
      omega

end Relation

/-! ### Insertions of a run -/

namespace Statement

variable (table : String)

/-- The insertions into a table. -/
def Inserts : Statement → Prop
  | insert other _ _ => other = table
  | _ => False

instance : DecidablePred (Inserts table)
  | insert other _ _ => inferInstanceAs (Decidable (other = table))
  | create .. => inferInstanceAs (Decidable False)
  | select _ => inferInstanceAs (Decidable False)
  | delete .. => inferInstanceAs (Decidable False)
  | drop _ => inferInstanceAs (Decidable False)

/-- The statements that take rows from a table, some of them or all with the table. -/
def TakesFrom : Statement → Prop
  | delete other _ => other = table
  | drop other => other = table
  | _ => False

instance : DecidablePred (TakesFrom table)
  | delete other _ => inferInstanceAs (Decidable (other = table))
  | drop other => inferInstanceAs (Decidable (other = table))
  | create .. => inferInstanceAs (Decidable False)
  | insert .. => inferInstanceAs (Decidable False)
  | select _ => inferInstanceAs (Decidable False)

end Statement

namespace Catalog.CarriesOut

variable {c c' : Catalog} {s : Statement} {table : String} {r : Relation}

/-- Insertions put a row behind the others. -/
theorem exists_append {attributes literals : List String} (there : c.find? table = some r)
    (done : c.CarriesOut (.insert table attributes literals) c') :
    ∃ row, c'.find? table = some (r.append row) := by
  cases done with
  | @insert _ _ _ r' row _ there' _ change =>
    rw [there] at there'
    obtain rfl := Option.some.inj there'
    exact ⟨row, by rw [change table, if_pos rfl]⟩

/-- A table that no row is put into and none is taken from stays as it is. -/
theorem find?_of_spared (done : c.CarriesOut s c') (there : c.find? table = some r)
    (spared : ¬ s.Inserts table) (kept : ¬ s.TakesFrom table) : c'.find? table = some r := by
  by_cases named : table ∈ s.tables
  · -- a query, or a statement that the other conditions rule out
    have same : ∀ {other : String}, table ∈ [other] → other = table :=
      fun member => (List.mem_singleton.1 member).symm
    cases done with
    | create free made change =>
      rw [same named, there] at free
      cases free
    | insert there' built change => exact absurd (same named) spared
    | select => exact there
    | delete there' decided change => exact absurd (same named) kept
    | drop there' change => exact absurd (same named) kept
  · rw [done.find?_eq named, there]

end Catalog.CarriesOut

namespace Engine

variable {e : Engine} {tree : Tree} {table : String} {r : Relation}

/-- What the disk counts for a tree, if it carries out an insertion into the table. -/
def insertCharge? (e : Engine) (table : String) (tree : Tree) : Option Nat :=
  ((e.carriedOut? tree).filter fun s => s.Inserts table).map fun _ =>
    (e.perform tree).engine.disk.counters.ios - e.disk.counters.ios

/-- **The charges of a run** for the insertions into a table, one after the other. -/
def insertCharges (e : Engine) (table : String) : List Tree → List Nat
  | [] => []
  | tree :: later =>
    (e.insertCharge? table tree).toList ++ (e.perform tree).engine.insertCharges table later

/-- There is one charge for each insertion into the table that the history tells. -/
theorem length_insertCharges (e : Engine) (table : String) (trees : List Tree) :
    (e.insertCharges table trees).length = (e.history trees).countP fun s => s.Inserts table := by
  induction trees generalizing e with
  | nil => rfl
  | cons tree later ih =>
    -- tree by tree, there is a charge where the history has an insertion
    rw [insertCharges, history, List.length_append, List.countP_append, ih, insertCharge?]
    congr 1
    cases e.carriedOut? tree with
    | none => rfl
    | some s => by_cases into : s.Inserts table <;> simp [Option.filter, into]

/-- An insertion that is carried out is charged one block or two, as the last block has room. -/
theorem insertCharge?_of_insert {attributes literals lines : List String}
    (carried : e.carriedOut? tree = some (.insert table attributes literals))
    (lowered : Statement.ofTree tree = .ok (.insert table attributes literals))
    (ended : (e.perform tree).result = .ok lines) (there : e.catalog.find? table = some r) :
    e.insertCharge? table tree = some (if r.lastBlockPartial then 2 else 1) := by
  have into : (Statement.insert table attributes literals).Inserts table := rfl
  -- what the disk counts for the tree are the transfers that its statement reports
  have charged : (e.perform tree).engine.disk.counters.ios - e.disk.counters.ios
      = if r.lastBlockPartial then 2 else 1 := by
    rw [perform_result_of_ok lowered] at ended
    calc (e.perform tree).engine.disk.counters.ios - e.disk.counters.ios
        = transferred (e.perform tree).events := e.cost_perform tree
      _ = transferred (e.catalog.runInsert table attributes literals).events :=
          transferred_perform lowered
      _ = if r.lastBlockPartial then 2 else 1 := Catalog.transferred_runInsert there ended
  rw [insertCharge?, carried, Option.filter_some, if_pos (decide_eq_true into), Option.map_some,
    charged]

/-- What is no insertion into the table is not charged for one. -/
theorem insertCharge?_of_not_inserts {s : Statement} (carried : e.carriedOut? tree = some s)
    (spared : ¬ s.Inserts table) : e.insertCharge? table tree = none := by
  rw [insertCharge?, carried, Option.filter_some, if_neg (by simpa using spared), Option.map_none]

/-- **One tree** carries out an insertion into the table, or leaves it as it is. -/
theorem exists_loadedTo_perform (there : e.catalog.find? table = some r)
    (kept : ∀ s ∈ (e.carriedOut? tree).toList, ¬ s.TakesFrom table) :
    ∃ r', (e.perform tree).engine.catalog.find? table = some r' ∧
      r.LoadedTo r' (e.insertCharge? table tree).toList := by
  rcases e.carriedOut?_cases tree with ⟨failed, same⟩ | ⟨s, lines, carried, lowered, ended, done⟩
  · -- what fails changes nothing and is not charged
    refine ⟨r, by rw [same, there], ?_⟩
    rw [insertCharge?, failed]
    exact .refl r
  have kept : ¬ s.TakesFrom table := kept s (by simp [carried])
  -- a statement that is carried out is an insertion into the table, or it spares it
  by_cases into : s.Inserts table
  · cases s with
    | insert other attributes literals =>
      obtain rfl : other = table := into
      obtain ⟨row, after⟩ := done.exists_append there
      rw [insertCharge?_of_insert carried lowered ended there]
      exact ⟨_, after, r.loadedTo_append row⟩
    | _ => exact into.elim
  · rw [insertCharge?_of_not_inserts carried into]
    exact ⟨r, done.find?_of_spared there into kept, .refl r⟩

/-- **Every run that takes nothing from a table loads it**, whatever else it does and whatever of it
fails. -/
theorem exists_loadedTo (trees : List Tree) (there : e.catalog.find? table = some r)
    (kept : ∀ s ∈ e.history trees, ¬ s.TakesFrom table) :
    ∃ r', (e.performs trees).catalog.find? table = some r' ∧
      r.LoadedTo r' (e.insertCharges table trees) := by
  induction trees generalizing e r with
  | nil => exact ⟨r, there, .refl r⟩
  | cons tree later ih =>
    -- the later trees go on from the table that the first one leaves
    obtain ⟨r', there', first⟩ := exists_loadedTo_perform there fun s member =>
      kept s (List.mem_append_left _ member)
    obtain ⟨r'', there'', rest⟩ := ih there' fun s member =>
      kept s (List.mem_append_right _ member)
    exact ⟨r'', there'', first.trans rest⟩

/-- **Loading in closed form.** Calls that delete nothing from a table and do not drop it charge the
insertions into it, `n` of them, two blocks each less the blocks that the table has grown by. That
is so from any fill of the last block, whatever fails in between and whatever is done to other
tables. For a table that was empty it leaves nothing to look up but `n`. -/
theorem loading_cost (cs : List Call) (there : e.catalog.find? table = some r)
    (kept : ∀ s ∈ e.history (cs.flatMap Call.trees), ¬ s.TakesFrom table) :
    let charges := e.insertCharges table (cs.flatMap Call.trees)
    let n := (e.history (cs.flatMap Call.trees)).countP fun s => s.Inserts table
    charges.length = n ∧ ∃ r', (e.calls cs).catalog.find? table = some r' ∧
      r'.schema = r.schema ∧ r'.rows.length = r.rows.length + n ∧
      (charges.sum : ℤ) = 2 * n - ((r'.rows.length ⌈/⌉ r'.rowsPerBlock : ℕ)
        - (r.rows.length ⌈/⌉ r.rowsPerBlock : ℕ)) ∧
      (r.rows = [] → (charges.sum : ℤ) = 2 * n - (n ⌈/⌉ r.rowsPerBlock : ℕ)) := by
  intro charges n
  have each : charges.length = n := e.length_insertCharges table _
  obtain ⟨r', there', loaded⟩ := exists_loadedTo (cs.flatMap Call.trees) there kept
  have rows : r'.rows.length = r.rows.length + n := by rw [← each, loaded.rows]
  have cost : charges.sum + r'.rows.length ⌈/⌉ r'.rowsPerBlock
      = 2 * n + r.rows.length ⌈/⌉ r.rowsPerBlock := by
    rw [← each]
    exact loaded.cost
  -- how many rows share a block goes with the schema, and that stays
  have share : r'.rowsPerBlock = r.rowsPerBlock := by
    rw [Relation.rowsPerBlock, loaded.schema, Relation.rowsPerBlock]
  have found : (e.calls cs).catalog.find? table = some r' := by rw [calls_eq_performs, there']
  refine ⟨each, r', found, loaded.schema, rows, by omega, fun none => ?_⟩
  -- an empty table begins without blocks
  rw [rows, share, none, List.length_nil, Nat.zero_add, zero_ceilDiv] at cost
  omega

/-- Four rows go into a block, and the table starts with three. Of four more insertions one fails,
for a value that is no number, and the others cost two blocks, one and two. Another table, a query,
and a deletion that fails come in between, and the sink takes nothing. -/
theorem loading_cost_interleaved :
    let create (table : String) : Tree := .node "CREATE" [.node "TABLE" [.leaf table],
      .node "ATTRIBUTES" [.node "ATTRIBUTE" [.leaf "a", .leaf "INT"],
        .node "ATTRIBUTE" [.leaf "b", .leaf "INT"]]]
    let insert (table value : String) : Tree := .node "INSERT" [.node "TABLE" [.leaf table],
      .node "VALUES" [.leaf "0", .leaf value]]
    let run (trees : List Tree) : List Call :=
      trees.map fun tree => .execute 0 tree (Transcript.limited 0)
    let e := (ofSettings .standard).calls (run [create "t", create "u", insert "t" "1",
      insert "t" "2", insert "t" "3"])
    let cs := run [insert "t" "4", insert "u" "1", insert "t" "x", insert "t" "5",
      .node "SELECT" [.node "COLUMNS" [.node "COLUMN" [.leaf "*"]],
        .node "FROM" [.node "TABLE" [.leaf "t"]]],
      .node "DELETE" [.node "TABLE" [.leaf "v"]], .node "DROP" [.node "TABLE" [.leaf "u"]],
      insert "t" "6"]
    e.insertCharges "t" (cs.flatMap Call.trees) = [2, 1, 2] ∧
      ∃ r r', e.catalog.find? "t" = some r ∧ (e.calls cs).catalog.find? "t" = some r' ∧
        r'.rows.length = 6 ∧ (([2, 1, 2] : List Nat).sum : ℤ)
          = 2 * 3 - ((r'.rows.length ⌈/⌉ r'.rowsPerBlock : ℕ)
            - (r.rows.length ⌈/⌉ r.rowsPerBlock : ℕ)) := by
  intro create insert run e cs
  have charges : e.insertCharges "t" (cs.flatMap Call.trees) = [2, 1, 2] := by decide +kernel
  have rows : (e.catalog.find? "t").map (·.rows.length) = some 3 := by decide +kernel
  have kept : ∀ s ∈ e.history (cs.flatMap Call.trees), ¬ s.TakesFrom "t" := by decide +kernel
  obtain ⟨r, there, three⟩ := Option.map_eq_some_iff.1 rows
  obtain ⟨each, r', there', -, grown, cost, -⟩ := loading_cost cs there kept
  rw [charges] at each cost
  rw [← each] at grown cost
  exact ⟨charges, r, r', there, there', by rw [grown, three]; rfl, cost⟩

end Engine

end RelEngine
