import Mathlib.Data.List.Induction
import RelEngine.Proofs.Atomicity

/-!
# The history of a table

What a catalog holds is settled by the statements that have been carried out so far, its
**history**. A statement that fails is no part of it, and what became of its output does not matter.

For one table of a name only the end of the history counts, what came since the table was last made.
If nothing has dropped it there, the table is there, with the schema that its fields make, and with
the rows that were inserted since, in their order, except those that some later deletion was true
of (`Engine.table_of_history`).

The proof goes along the history, one statement at a time. `Catalog.CarriesOut` says what a
statement does to the catalog, and a statement that neither makes nor drops a table does the same to
its rows as to the rows that the history tells: it puts its own behind them and takes some away
(`Catalog.CarriesOut.find?_of_not_defines`, `surviving_concat`).

* `Engine.carriedOut?_eq_some_iff` — the history is what the callers can tell from their replies;
* `Engine.table_of_history` — the history tells the catalog.
-/

namespace RelEngine

/-! ### What a statement does to one table -/

namespace Statement

variable (table : String)

/-- The statements that make or drop the table. -/
def Defines : Statement → Prop
  | create other _ => other = table
  | drop other => other = table
  | _ => False

instance : DecidablePred (Defines table)
  | create other _ => inferInstanceAs (Decidable (other = table))
  | drop other => inferInstanceAs (Decidable (other = table))
  | insert .. => inferInstanceAs (Decidable False)
  | select _ => inferInstanceAs (Decidable False)
  | delete .. => inferInstanceAs (Decidable False)

/-- The row that a statement inserts into the table. -/
def row? (schema : Schema) : Statement → Option Row
  | insert other attributes literals =>
    if other = table then (Row.build schema attributes literals).toOption else none
  | _ => none

/-- Whether a statement deletes a row from the table: one that its condition is true of, and any row
if it has none. -/
def deletes (row : Row) : Statement → Bool
  | delete other selection => other == table && affirmed (Condition.admits selection row)
  | _ => false

/-- The table with the rows that a statement leaves in it, and its own behind them. -/
def rewrites (s : Statement) (r : Relation) : Relation :=
  { r with rows :=
      (r.rows.filter fun row => !s.deletes table row) ++ (s.row? table r.schema).toList }

end Statement

/-- **The rows that survive** among those that some statements have inserted into a table: the ones
that no later statement deletes. -/
def surviving (table : String) (schema : Schema) : List Statement → List Row
  | [] => []
  | s :: later =>
    ((s.row? table schema).toList.filter fun row => !later.any (·.deletes table row))
      ++ surviving table schema later

/-- One statement more deletes from the rows that there are, and its own row comes behind them. -/
theorem surviving_concat (table : String) (schema : Schema) (since : List Statement)
    (s : Statement) :
    surviving table schema (since ++ [s])
      = ((surviving table schema since).filter fun row => !s.deletes table row)
        ++ (s.row? table schema).toList := by
  induction since with
  | nil => simp [surviving]
  | cons first since ih =>
    rw [List.cons_append, surviving, surviving, ih, List.filter_append, List.filter_filter,
      List.append_assoc]
    congr 2
    -- deleted by none of them means by none of the first and not by the last
    funext row
    rw [List.any_append, List.any_cons, List.any_nil, Bool.or_false, Bool.not_or, Bool.and_comm]

/-! ### The making of a table -/

/-- **The last making of a table** in a history: the fields it was declared with, and what came
since, which neither makes nor drops it. -/
def LastMade (history : List Statement) (table : String) (fields : List Field)
    (since : List Statement) : Prop :=
  ∃ before, history = before ++ .create table fields :: since ∧ ∀ s ∈ since, ¬ s.Defines table

/-- Nothing has been made before the first statement. -/
theorem not_lastMade_nil (table : String) (fields : List Field) (since : List Statement) :
    ¬ LastMade [] table fields since := by
  rintro ⟨before, split, -⟩
  exact List.cons_ne_nil _ _ (List.append_eq_nil_iff.1 split.symm).2

/-- One statement more is the last making itself, or it comes behind it. -/
theorem lastMade_concat {history : List Statement} {s : Statement} {table : String}
    {fields : List Field} {since : List Statement} :
    LastMade (history ++ [s]) table fields since ↔
      (s = .create table fields ∧ since = []) ∨
        (¬ s.Defines table ∧
          ∃ earlier, since = earlier ++ [s] ∧ LastMade history table fields earlier) := by
  constructor
  · rintro ⟨before, split, undefined⟩
    rcases List.eq_nil_or_concat since with rfl | ⟨earlier, last, rfl⟩
    · -- nothing came since, so the last statement is the making
      obtain ⟨-, same⟩ := List.append_inj' split rfl
      exact .inl ⟨List.singleton_inj.1 same, rfl⟩
    · -- the last statement is the last of those that came since
      rw [List.concat_eq_append] at split undefined ⊢
      rw [← List.cons_append, ← List.append_assoc] at split
      obtain ⟨rfl, same⟩ := List.append_inj' split rfl
      obtain rfl := List.singleton_inj.1 same
      refine .inr ⟨undefined s (by simp), earlier, rfl, before, rfl, fun s' member => ?_⟩
      exact undefined s' (List.mem_append_left _ member)
  · rintro (⟨rfl, rfl⟩ | ⟨undefined, earlier, rfl, before, rfl, others⟩)
    · exact ⟨history, rfl, by simp⟩
    · refine ⟨before, by simp, fun s' member => ?_⟩
      rcases List.mem_append.1 member with earlier | last
      · exact others s' earlier
      · rw [List.mem_singleton.1 last]
        exact undefined

/-! ### The table that a history tells of -/

/-- **A table as its history tells**: made with some fields, and then kept by some statements. -/
structure Relation.Follows (r : Relation) (table : String) (fields : List Field)
    (since : List Statement) : Prop where
  name : r.name = table
  schema : Schema.ofFields fields = .ok r.schema
  /-- No insertion is without a row. -/
  built : ∀ attributes literals, .insert table attributes literals ∈ since →
    ∃ row, Row.build r.schema attributes literals = .ok row
  rows : r.rows = surviving table r.schema since

/-- **A catalog as its history tells**: a table is under the names that the history has made last,
and nothing is under the others. -/
def Catalog.Follows (c : Catalog) (history : List Statement) : Prop :=
  ∀ table,
    (∀ fields since, LastMade history table fields since →
      ∃ r, c.find? table = some r ∧ r.Follows table fields since) ∧
    ((∀ fields since, ¬ LastMade history table fields since) → c.find? table = none)

namespace Catalog

variable {c c' : Catalog} {s : Statement} {table : String}

/-- **A statement that neither makes nor drops a table** keeps the rows that it does not delete and
puts its own behind them. -/
theorem CarriesOut.find?_of_not_defines (done : c.CarriesOut s c') (undefined : ¬ s.Defines table) :
    c'.find? table = (c.find? table).map (s.rewrites table) := by
  -- what a statement on other tables leaves
  have apart : ∀ {other : String} {stored : Option Relation}, c.ChangesAt other stored c' →
      other ≠ table → (∀ row, s.deletes table row = false) →
      (∀ schema, s.row? table schema = none) →
      c'.find? table = (c.find? table).map (s.rewrites table) := by
    intro other stored change differ keeps adds
    rw [change table, if_neg differ.symm]
    cases c.find? table <;> simp [Statement.rewrites, keeps, adds]
  cases done with
  | create free made change => exact apart change undefined (fun _ => rfl) fun _ => rfl
  -- an insertion or a deletion changes the rows of its own table as the statement rewrites them,
  -- and on another table it is none of this one's
  | @insert other attributes literals r row _ there built change =>
    by_cases same : other = table
    · subst same
      rw [change other, if_pos rfl, there]
      simp [Statement.rewrites, Statement.deletes, Statement.row?, built, Relation.append,
        Except.toOption]
    · exact apart change same (fun _ => rfl) fun _ => if_neg same
  | select =>
    cases c.find? table <;> simp [Statement.rewrites, Statement.deletes, Statement.row?]
  | @delete other selection r _ there decided change =>
    by_cases same : other = table
    · subst same
      rw [change other, if_pos rfl, there]
      simp [Statement.rewrites, Statement.deletes, Statement.row?]
    · exact apart change same (fun _ => by simp [Statement.deletes, same]) fun _ => rfl
  | drop there change => exact apart change undefined (fun _ => rfl) fun _ => rfl

/-- A statement that neither makes nor drops a table is one more in the table's story. -/
theorem CarriesOut.follows_concat (done : c.CarriesOut s c') (undefined : ¬ s.Defines table)
    {r : Relation} (there : c.find? table = some r) {fields : List Field} {since : List Statement}
    (follows : r.Follows table fields since) :
    ∃ r', c'.find? table = some r' ∧ r'.Follows table fields (since ++ [s]) := by
  have after : c'.find? table = some (s.rewrites table r) := by
    rw [done.find?_of_not_defines undefined, there, Option.map_some]
  refine ⟨_, after, follows.name, follows.schema, fun attributes literals member => ?_, ?_⟩
  · rcases List.mem_append.1 member with earlier | last
    · exact follows.built attributes literals earlier
    · -- the statement is the insertion, and it was carried out
      obtain rfl := List.mem_singleton.1 last
      cases done with
      | insert there' built change =>
        rw [there] at there'
        cases there'
        exact ⟨_, built⟩
  · change _ = surviving table r.schema (since ++ [s])
    rw [surviving_concat, ← follows.rows, Statement.rewrites]

/-- Carrying out a statement adds it to the history. -/
theorem CarriesOut.follows {history : List Statement} (done : c.CarriesOut s c')
    (follows : c.Follows history) : c'.Follows (history ++ [s]) := by
  intro table
  by_cases defined : s.Defines table
  · -- the story of the table begins or ends here, whatever was before
    cases done with
    | @create other fields schema _ free made change =>
      have same : other = table := defined
      subst same
      refine ⟨fun fields' since last => ?_, fun never => ?_⟩
      · rcases lastMade_concat.1 last with ⟨same, rfl⟩ | ⟨undefined, -⟩
        · cases same
          exact ⟨.empty other schema, by rw [change other, if_pos rfl],
            ⟨rfl, made, fun _ _ member => (List.not_mem_nil member).elim, rfl⟩⟩
        · exact absurd defined undefined
      · exact absurd (lastMade_concat.2 (.inl ⟨rfl, rfl⟩)) (never fields [])
    | @drop other r _ there change =>
      have same : other = table := defined
      subst same
      refine ⟨fun fields' since last => ?_, fun _ => by rw [change other, if_pos rfl]⟩
      rcases lastMade_concat.1 last with ⟨same, -⟩ | ⟨undefined, -⟩
      · cases same
      · exact absurd defined undefined
    | _ => exact defined.elim
  · -- the last making is the one before
    refine ⟨fun fields' since last => ?_, fun never => ?_⟩
    · rcases lastMade_concat.1 last with ⟨rfl, -⟩ | ⟨-, earlier, rfl, before⟩
      · exact absurd rfl defined
      · obtain ⟨r, there, follows⟩ := (follows table).1 fields' earlier before
        exact done.follows_concat defined there follows
    · have absent := (follows table).2 fun fields since before =>
        never fields (since ++ [s]) (lastMade_concat.2 (.inr ⟨defined, since, rfl, before⟩))
      rw [done.find?_of_not_defines defined, absent]
      rfl

end Catalog

/-! ### The history of a run -/

namespace Engine

/-- The statement that performing a tree carries out, if it succeeds. -/
def carriedOut? (e : Engine) (tree : Tree) : Option Statement :=
  match Statement.ofTree tree, (e.perform tree).result with
  | .ok s, .ok _ => some s
  | _, _ => none

/-- **The history of a run**: the statements carried out, one after the other. -/
def history (e : Engine) : List Tree → List Statement
  | [] => []
  | tree :: later => (e.carriedOut? tree).toList ++ (e.perform tree).engine.history later

/-- A run that goes on for one more tree has the history so far, and what that tree carries out. -/
theorem history_concat (e : Engine) (trees : List Tree) (tree : Tree) :
    e.history (trees ++ [tree])
      = e.history trees ++ ((e.performs trees).carriedOut? tree).toList := by
  induction trees generalizing e with
  | nil => simp [history, performs]
  | cons first trees ih =>
    rw [List.cons_append, history, history, ih, List.append_assoc]
    rfl

/-- A tree adds nothing to the history and changes nothing, or it adds what it carries out. -/
theorem carriedOut?_cases (e : Engine) (tree : Tree) :
    (e.carriedOut? tree = none ∧ (e.perform tree).engine.catalog = e.catalog) ∨
    (∃ s lines, e.carriedOut? tree = some s ∧ Statement.ofTree tree = .ok s ∧
      (e.perform tree).result = .ok lines ∧
      e.catalog.CarriesOut s (e.perform tree).engine.catalog) := by
  unfold carriedOut?
  rcases e.perform_cases tree with ⟨err, ended, -, same⟩ | ⟨s, lines, lowered, ended, done⟩
  · refine .inl ⟨?_, same⟩
    rw [ended]
    cases Statement.ofTree tree <;> rfl
  · refine .inr ⟨s, lines, ?_, lowered, ended, done⟩
    rw [lowered, ended]

/-- A tree is carried out when its caller hears of success, or of nothing worse than a sink that
has not taken the output. -/
theorem carriedOut?_eq_some_iff {σ : Type} [Sink σ] {e : Engine} {tree : Tree} {s : Statement}
    (elapsed : Nat) (out : σ) :
    e.carriedOut? tree = some s ↔ Statement.ofTree tree = .ok s ∧
      ((e.execute elapsed tree out).result = .ok () ∨
        (e.execute elapsed tree out).result = .error .outputClosed) := by
  unfold carriedOut? execute
  rcases e.perform_cases tree with ⟨err, ended, ofStatement, -⟩ | ⟨s', lines, lowered, ended, -⟩
  · rw [ended, Outcome.deliver_of_error ended]
    -- the statement's own error is none of output
    have own : err ≠ .outputClosed := fun same => ofStatement (same ▸ trivial)
    cases Statement.ofTree tree <;> simp [own]
  · -- here the statement has its lines, and the sink alone can still refuse them
    rw [lowered, ended]
    simp [Outcome.deliver_of_ok ended elapsed out]

/-- What a tree carries out becomes part of the history; what fails leaves all as it is. -/
theorem follows_perform {e : Engine} {history : List Statement}
    (follows : e.catalog.Follows history) (tree : Tree) :
    (e.perform tree).engine.catalog.Follows (history ++ (e.carriedOut? tree).toList) := by
  rcases e.carriedOut?_cases tree with ⟨failed, same⟩ | ⟨s, lines, carried, -, -, done⟩
  · rw [failed, same]
    simpa using follows
  · rw [carried]
    exact done.follows follows

/-- The catalog of every run is as its history tells, by going along the run. -/
theorem follows_history (s : Settings) (trees : List Tree) :
    ((ofSettings s).performs trees).catalog.Follows ((ofSettings s).history trees) := by
  induction trees using List.reverseRecOn with
  | nil =>
    -- nothing is made, and nothing is there
    exact fun table => ⟨fun fields since made => (not_lastMade_nil table fields since made).elim,
      fun _ => rfl⟩
  | append_singleton trees tree ih =>
    rw [history_concat, performs_append]
    exact follows_perform ih tree

/-- **The history tells the catalog.** After any calls on a new engine, whatever they run, whatever
of it fails and whatever the sinks take, there is a table under a name exactly if the last statement
carried out that makes or drops it makes it. The table then has the schema of that statement, and
its rows are those of the insertions carried out since, in their order, less those that a later
deletion was true of. -/
theorem table_of_history (s : Settings) (cs : List Call) (table : String) :
    let history := (ofSettings s).history (cs.flatMap Call.trees)
    let catalog := ((ofSettings s).calls cs).catalog
    ((∃ r, catalog.find? table = some r) ↔ ∃ fields since, LastMade history table fields since) ∧
      ∀ r, catalog.find? table = some r → ∀ fields since, LastMade history table fields since →
        r.Follows table fields since := by
  intro history catalog
  have follows : catalog.Follows history := by
    change ((ofSettings s).calls cs).catalog.Follows _
    -- calls differ from trees in what is put out, and that is no part of the catalog
    rw [calls_eq_performs]
    exact follows_history s _
  refine ⟨⟨fun ⟨r, there⟩ => ?_, fun ⟨fields, since, made⟩ => ?_⟩,
    fun r there fields since made => ?_⟩
  · -- nothing is under a name that was not made
    by_contra never
    have absent := (follows table).2 fun fields since made => never ⟨fields, since, made⟩
    rw [there] at absent
    cases absent
  · obtain ⟨r, there, -⟩ := (follows table).1 fields since made
    exact ⟨r, there⟩
  · obtain ⟨r', there', told⟩ := (follows table).1 fields since made
    obtain rfl := Option.some.inj (there.symm.trans there')
    exact told

/-- A table that was dropped and made again, with a failing creation and a failing insertion on the
way and a sink that takes nothing: of three rows inserted, a deletion has taken the first. -/
theorem table_of_history_remade :
    let create : Tree := .node "CREATE" [.node "TABLE" [.leaf "t"],
      .node "ATTRIBUTES" [.node "ATTRIBUTE" [.leaf "a", .leaf "INT"]]]
    let insert (value : String) : Tree := .node "INSERT" [.node "TABLE" [.leaf "t"],
      .node "VALUES" [.leaf value]]
    let delete : Tree := .node "DELETE" [.node "TABLE" [.leaf "t"],
      .node "WHERE" [.node "=" [.leaf "a", .leaf "1"]]]
    let cs : List Call := ([create, insert "5", .node "DROP" [.node "TABLE" [.leaf "t"]], create,
      insert "1", create, insert "2", insert "x", delete, insert "1"] : List Tree).map
        fun tree => .execute 0 tree (Transcript.limited 0)
    let since : List Statement := [.insert "t" [] ["1"], .insert "t" [] ["2"],
      .delete "t" (some (.equal "a" "1")), .insert "t" [] ["1"]]
    LastMade ((ofSettings .standard).history (cs.flatMap Call.trees)) "t" [⟨"a", .int⟩] since ∧
      ∃ r, ((ofSettings .standard).calls cs).catalog.find? "t" = some r ∧
        r.Follows "t" [⟨"a", .int⟩] since ∧ r.rows.map Row.values = [[.int 2], [.int 1]] := by
  intro create insert delete cs since
  have made : LastMade ((ofSettings .standard).history (cs.flatMap Call.trees)) "t" [⟨"a", .int⟩]
      since := by
    refine ⟨[.create "t" [⟨"a", .int⟩], .insert "t" [] ["5"], .drop "t"], ?_, ?_⟩ <;>
      decide +kernel
  obtain ⟨there, told⟩ := table_of_history .standard cs "t"
  obtain ⟨r, found⟩ := there.2 ⟨_, _, made⟩
  have rows : (((ofSettings .standard).calls cs).catalog.find? "t").map (·.rows.map Row.values)
      = some [[.int 2], [.int 1]] := by
    decide +kernel
  rw [found] at rows
  exact ⟨made, r, found, told r found _ _ made, Option.some.inj rows⟩

end Engine

end RelEngine
