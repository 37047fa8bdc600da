import RelEngine.Proofs.Atomicity
import RelEngine.Proofs.Transfers

/-!
# Locality

A statement names some tables and has to do with no others. This is two facts, and they are proved
apart.

* It leaves alone what it does not name (`Catalog.run_find?_of_not_mem`). This is read off what
  carrying out a statement is: a change at one name, which the statement has named, or no change.
* What it does and what it leaves under the names that it names is decided by what is stored there
  (`Catalog.run_congr`). Here the executors are run side by side on two catalogs that agree on these
  names. The catalogs need not be equal elsewhere, and they may keep their tables in different
  orders; what is compared is what they hold under each name.

Statements that name different tables do not see each other then. After the first of them, the
second finds under its names what it would have found without, and so it ends in the same way and
leaves the same behind. Under each name at most one of them has changed anything, and so both orders
lead to the same catalog.

Milliseconds are left out. They are sums of rounded numbers, which do depend on the statements that
were run before.

* `Engine.perform_local` — engines that agree on the tables of a tree perform it alike;
* `Engine.perform_independent` — performing another tree before makes no difference;
* `Engine.execute_local` — all of it for calls.
-/

namespace RelEngine

/-- The tables that a tree names: those of its statement, if it is one. -/
def Tree.tables (tree : Tree) : List String :=
  match Statement.ofTree tree with
  | .error _ => []
  | .ok s => s.tables

namespace Catalog

/-- **Catalogs that agree** on some names: under each of them both hold the same table or none. -/
def AgreeOn (names : List String) (c c' : Catalog) : Prop :=
  ∀ name ∈ names, c.find? name = c'.find? name

variable {c c' : Catalog}

/-! ### What a statement leaves alone -/

/-- A statement that is carried out changes no table that it does not name. -/
theorem CarriesOut.find?_eq {s : Statement} (h : c.CarriesOut s c') {name : String}
    (unnamed : name ∉ s.tables) : c'.find? name = c.find? name := by
  -- every change is one at the only name of the statement
  have elsewhere : ∀ {table : String} {after : Option Relation}, c.ChangesAt table after c' →
      name ∉ [table] → c'.find? name = c.find? name := by
    intro table after change other
    rw [change name, if_neg fun same => other (List.mem_singleton.2 same)]
  cases h with
  | create free made change => exact elsewhere change unnamed
  | insert there built change => exact elsewhere change unnamed
  | select => rfl
  | delete there decided change => exact elsewhere change unnamed
  | drop there change => exact elsewhere change unnamed

/-- A statement leaves the tables alone that it does not name. -/
theorem run_find?_of_not_mem (m : Memory) (r : Renderer) {s : Statement} {name : String}
    (unnamed : name ∉ s.tables) : (c.run m r s).catalog.find? name = c.find? name := by
  rcases c.run_cases m r s with ⟨e, -, same⟩ | ⟨lines, -, done⟩
  · rw [same]
  · exact done.find?_eq unnamed

end Catalog

/-! ### What a statement depends on -/

/-- **Effects that are the same** as far as some names go. -/
structure Effect.SameOn (names : List String) (effect effect' : Effect) : Prop where
  events : effect.events = effect'.events
  result : effect.result = effect'.result
  catalog : effect.catalog.AgreeOn names effect'.catalog

namespace Catalog

variable {c c' : Catalog} {table : String}

/-- Failures that leave the catalogs as they are. -/
theorem AgreeOn.failed {names : List String} (h : c.AgreeOn names c') (events : List Event)
    (e : Error) : (Effect.failed c events e).SameOn names (.failed c' events e) := ⟨rfl, rfl, h⟩

theorem AgreeOn.find_eq (h : c.AgreeOn [table] c') : c.find table = c'.find table := by
  rw [find, find, h table (List.mem_singleton_self table)]

/-- Changes at one name to the same table. -/
theorem ChangesAt.agreeOn {after : Option Relation} {d d' : Catalog} (h : c.ChangesAt table after d)
    (h' : c'.ChangesAt table after d') : d.AgreeOn [table] d' := by
  intro name named
  obtain rfl := List.mem_singleton.1 named
  rw [h name, h' name, if_pos rfl, if_pos rfl]

/-- Creating a table looks at that name only. -/
theorem runCreate_congr (h : c.AgreeOn [table] c') (fields : List Field) :
    (c.runCreate table fields).SameOn [table] (c'.runCreate table fields) := by
  have same := h table (List.mem_singleton_self table)
  rw [runCreate, runCreate]
  cases there : c.find? table with
  | some r =>
    rw [register_of_taken there, register_of_taken (same ▸ there)]
    exact h.failed [] _
  | none =>
    have there' : c'.find? table = none := same ▸ there
    rw [register_of_free there, register_of_free there']
    -- the fields alone decide whether they make a schema
    cases Schema.ofFields fields with
    | error e => exact h.failed [] e
    | ok schema =>
      refine ⟨rfl, rfl, ?_⟩
      exact ChangesAt.agreeOn (find?_insert there) (find?_insert there')

/-- An insertion reads and writes its one table. -/
theorem runInsert_congr (h : c.AgreeOn [table] c') (attributes literals : List String) :
    (c.runInsert table attributes literals).SameOn [table]
      (c'.runInsert table attributes literals) := by
  rw [runInsert, runInsert, ← h.find_eq]
  cases there : c.find table with
  | error e => exact h.failed [] e
  | ok r =>
    have there' : c'.find table = .ok r := h.find_eq ▸ there
    dsimp only
    cases Row.build r.schema attributes literals with
    | error e => exact h.failed [] e
    | ok row =>
      -- the same row goes to the end of the same table
      refine ⟨rfl, rfl, ?_⟩
      exact ChangesAt.agreeOn (find?_replace (find_eq_ok_iff.1 there) _)
        (find?_replace (find_eq_ok_iff.1 there') _)

/-- So does a deletion. -/
theorem runDelete_congr (h : c.AgreeOn [table] c') (selection : Option Condition) :
    (c.runDelete table selection).SameOn [table] (c'.runDelete table selection) := by
  rw [runDelete, runDelete, ← h.find_eq]
  cases there : c.find table with
  | error e => exact h.failed [] e
  | ok r =>
    have there' : c'.find table = .ok r := h.find_eq ▸ there
    -- the scan puts the same table back into both, also when it fails
    have put : ∀ left : Relation, (c.replace table left).AgreeOn [table] (c'.replace table left) :=
      fun left => ChangesAt.agreeOn (find?_replace (find_eq_ok_iff.1 there) left)
        (find?_replace (find_eq_ok_iff.1 there') left)
    dsimp only
    cases (r.removeWhere (Condition.admits selection)).2 with
    | error e => exact (put _).failed _ e
    | ok n => exact ⟨rfl, rfl, put _⟩

theorem runDrop_congr (h : c.AgreeOn [table] c') :
    (c.runDrop table).SameOn [table] (c'.runDrop table) := by
  rw [runDrop, runDrop, drop, drop, ← h.find_eq]
  cases c.find table with
  | error e => exact h.failed _ e
  | ok r =>
    -- the table is gone from both
    refine ⟨rfl, rfl, ?_⟩
    exact ChangesAt.agreeOn (find?_erase c table) (find?_erase c' table)

/-- A query reads the tables it names, and there may be many of them. -/
theorem runSelect_congr {q : Query} (h : c.AgreeOn q.tables c') (m : Memory) (r : Renderer) :
    (c.runSelect m r q).SameOn q.tables (c'.runSelect m r q) := by
  -- the tables are looked up one by one, each with the same result
  have found : q.relations c = q.relations c' := by
    refine mapM_congr fun name named => ?_
    rw [find, find, h name named]
  have answer : q.execute c m = q.execute c' m := by
    rw [Query.execute, Query.execute, found]
  rw [runSelect, runSelect, answer]
  exact ⟨rfl, rfl, h⟩

/-- **What a statement does depends on the tables that it names.** -/
theorem run_congr {s : Statement} (h : c.AgreeOn s.tables c') (m : Memory) (r : Renderer) :
    (c.run m r s).SameOn s.tables (c'.run m r s) := by
  cases s with
  | create table fields => exact runCreate_congr h fields
  | insert table attributes literals => exact runInsert_congr h attributes literals
  | select q => exact runSelect_congr h m r
  | delete table selection => exact runDelete_congr h selection
  | drop table => exact runDrop_congr h

end Catalog

/-! ### Engines -/

namespace Engine

/-- **Engines that agree** on some tables: they were set up alike, and hold the same tables under
these names. -/
structure AgreeOn (names : List String) (e e' : Engine) : Prop where
  memory : e.memory = e'.memory
  renderer : e.renderer = e'.renderer
  catalog : e.catalog.AgreeOn names e'.catalog

/-- **Engines that run a tree alike**: with the same events, the same printed lines or error, and as
many blocks in the report. So callers whose sinks take everything get the same reply. -/
structure RunAlike (tree : Tree) (e e' : Engine) : Prop where
  events : (e.perform tree).events = (e'.perform tree).events
  result : (e.perform tree).result = (e'.perform tree).result
  ios : (e.perform tree).cost.ios = (e'.perform tree).cost.ios
  reply : ∀ {σ : Type} [Sink σ] (elapsed : Nat) (out : σ), Sink.NeverFails out →
    (e.execute elapsed tree out).result = (e'.execute elapsed tree out).result

variable {e e' : Engine} {tree : Tree}

/-- The blocks are those among the events, and a sink that takes everything has no part in the
reply. -/
theorem RunAlike.of_events (events : (e.perform tree).events = (e'.perform tree).events)
    (result : (e.perform tree).result = (e'.perform tree).result) : RunAlike tree e e' := by
  refine ⟨events, result, ?_, fun elapsed out never => ?_⟩
  · rw [cost_perform, cost_perform, events]
  · rw [execute, execute, ((e.perform tree).deliver_of_neverFails elapsed never).1,
      ((e'.perform tree).deliver_of_neverFails elapsed never).1, result]

/-- **The frame of a tree**: the tables that its statement does not name. -/
theorem perform_find?_of_not_mem (e : Engine) {name : String} (unnamed : name ∉ tree.tables) :
    (e.perform tree).engine.catalog.find? name = e.catalog.find? name := by
  unfold Tree.tables at unnamed
  cases lowered : Statement.ofTree tree with
  | error err => rw [perform_catalog_of_error lowered]
  | ok s =>
    rw [lowered] at unnamed
    rw [perform_catalog_of_ok lowered]
    exact Catalog.run_find?_of_not_mem _ _ unnamed

/-- **Engines that agree on the tables of a tree** run it alike and agree on them again. -/
theorem perform_local (h : e.AgreeOn tree.tables e') :
    RunAlike tree e e' ∧
      (e.perform tree).engine.AgreeOn tree.tables (e'.perform tree).engine := by
  obtain ⟨memory, renderer, catalog⟩ := h
  have names : ∀ {s : Statement}, Statement.ofTree tree = .ok s → tree.tables = s.tables := by
    intro s lowered
    rw [Tree.tables, lowered]
  -- the catalogs agree on what the statement names, and the rest of the engines is the same
  have told : (e.perform tree).events = (e'.perform tree).events ∧
      (e.perform tree).result = (e'.perform tree).result ∧
      (e.perform tree).engine.catalog.AgreeOn tree.tables (e'.perform tree).engine.catalog := by
    cases lowered : Statement.ofTree tree with
    | error err =>
      rw [perform_events_of_error lowered, perform_events_of_error lowered,
        perform_result_of_error lowered, perform_result_of_error lowered,
        perform_catalog_of_error lowered, perform_catalog_of_error lowered]
      exact ⟨rfl, rfl, catalog⟩
    | ok s =>
      rw [names lowered] at catalog ⊢
      have same := Catalog.run_congr catalog e.memory e.renderer
      rw [perform_events_of_ok lowered, perform_events_of_ok lowered,
        perform_result_of_ok lowered, perform_result_of_ok lowered,
        perform_catalog_of_ok lowered, perform_catalog_of_ok lowered, ← memory, ← renderer,
        same.events]
      exact ⟨rfl, same.result, same.catalog⟩
  obtain ⟨events, result, left⟩ := told
  exact ⟨.of_events events result, memory, renderer, left⟩

/-- Another tree is performed before, and the engines still agree on the tables that it does not
name. -/
theorem perform_agreeOn (e : Engine) {names : List String} (apart : names.Disjoint tree.tables) :
    (e.perform tree).engine.AgreeOn names e := by
  refine ⟨rfl, rfl, fun name named => ?_⟩
  exact e.perform_find?_of_not_mem fun unnamed => apart named unnamed

/-- **Trees that name different tables** are run alike in either order, and both orders lead to the
same tables and the same number of blocks. -/
theorem perform_independent (e : Engine) {first second : Tree}
    (apart : first.tables.Disjoint second.tables) :
    let before := (e.perform first).engine
    let before' := (e.perform second).engine
    RunAlike second before e ∧ RunAlike first before' e ∧
    (∀ name, (before.perform second).engine.catalog.find? name
      = (before'.perform first).engine.catalog.find? name) ∧
    (before.perform second).engine.disk.counters.ios
      = (before'.perform first).engine.disk.counters.ios := by
  intro before before'
  obtain ⟨alike, left⟩ := perform_local (e.perform_agreeOn apart.symm)
  obtain ⟨alike', left'⟩ := perform_local (e.perform_agreeOn apart)
  refine ⟨alike, alike', fun name => ?_, ?_⟩
  · by_cases named : name ∈ second.tables
    · -- the first tree has left the second what it needs, and leaves alone what it makes of it
      calc (before.perform second).engine.catalog.find? name
          = (e.perform second).engine.catalog.find? name := left.catalog name named
        _ = (before'.perform first).engine.catalog.find? name :=
            (before'.perform_find?_of_not_mem fun h => apart h named).symm
    · rw [before.perform_find?_of_not_mem named]
      by_cases named' : name ∈ first.tables
      · exact (left'.catalog name named').symm
      · -- neither of the two has to do with the name
        rw [e.perform_find?_of_not_mem named', before'.perform_find?_of_not_mem named',
          e.perform_find?_of_not_mem named]
  · -- each tree adds the blocks among its events, whichever comes first
    rw [ios_perform, ios_perform, ios_perform, ios_perform, alike.events, alike'.events]
    exact Nat.add_right_comm _ _ _

/-- **Locality and commutation.** A statement leaves every table that it does not name as it was.
Engines that were set up alike and agree on the tables that it names run it alike and agree on them
again. Statements that name different tables are run alike in either order, and both orders lead to
the same catalog and the same number of blocks. -/
theorem execute_local {σ : Type} [Sink σ] (e : Engine) (tree : Tree) (elapsed : Nat) (out : σ) :
    (∀ name ∉ tree.tables,
      (e.execute elapsed tree out).engine.catalog.find? name = e.catalog.find? name) ∧
    (∀ e' : Engine, e.AgreeOn tree.tables e' → RunAlike tree e e' ∧
      (e.execute elapsed tree out).engine.AgreeOn tree.tables
        (e'.execute elapsed tree out).engine) ∧
    ∀ {τ : Type} [Sink τ] (other : Tree) (elapsed' : Nat) (out' : τ),
      tree.tables.Disjoint other.tables →
      let before := (e.execute elapsed tree out).engine
      let before' := (e.execute elapsed' other out').engine
      let one := (before.execute elapsed' other out').engine
      let two := (before'.execute elapsed tree out).engine
      RunAlike other before e ∧ RunAlike tree before' e ∧
      (∀ name, one.catalog.find? name = two.catalog.find? name) ∧
      one.disk.counters.ios = two.disk.counters.ios := by
  refine ⟨fun name unnamed => ?_, fun e' agree => ?_, fun other elapsed' out' apart => ?_⟩
  · rw [execute_engine]
    exact e.perform_find?_of_not_mem unnamed
  · rw [execute_engine, execute_engine]
    exact perform_local agree
  · -- the sinks have no part in what becomes of the engines
    simp only [execute_engine]
    exact e.perform_independent apart

/-- A row is added to one table and another table is emptied. The engine that is compared has lost
the other table. -/
theorem execute_local_two :
    let e := (ofSettings .standard).calls
      ([.node "CREATE" [.node "TABLE" [.leaf "s"],
          .node "ATTRIBUTES" [.node "ATTRIBUTE" [.leaf "a", .leaf "INT"]]],
        .node "CREATE" [.node "TABLE" [.leaf "t"],
          .node "ATTRIBUTES" [.node "ATTRIBUTE" [.leaf "b", .leaf "STR20"]]],
        .node "INSERT" [.node "TABLE" [.leaf "t"], .node "VALUES" [.leaf "x"]]].map
          fun tree => .execute 0 tree Transcript.unlimited)
    let tree : Tree := .node "INSERT" [.node "TABLE" [.leaf "s"], .node "VALUES" [.leaf "1"]]
    let other : Tree := .node "DELETE" [.node "TABLE" [.leaf "t"]]
    let e' := e.call (.execute 0 (.node "DROP" [.node "TABLE" [.leaf "t"]]) Transcript.unlimited)
    let before := (e.execute 0 tree Transcript.unlimited).engine
    let before' := (e.execute 0 other Transcript.unlimited).engine
    "t" ∉ tree.tables ∧ e.AgreeOn tree.tables e' ∧ tree.tables.Disjoint other.tables ∧
      before.catalog.find? "t" = e.catalog.find? "t" ∧ RunAlike tree e e' ∧
      RunAlike tree before' e ∧
      ∀ name, (before.execute 0 other Transcript.unlimited).engine.catalog.find? name
        = (before'.execute 0 tree Transcript.unlimited).engine.catalog.find? name := by
  intro e tree other e' before before'
  have unnamed : "t" ∉ tree.tables := by decide +kernel
  -- the engines differ in the other table alone
  have agree : e.AgreeOn tree.tables e' := by
    refine ⟨rfl, rfl, ?_⟩
    have named : tree.tables = ["s"] := by decide +kernel
    have same : e.catalog.find? "s" = e'.catalog.find? "s" := by decide +kernel
    intro name member
    rw [named, List.mem_singleton] at member
    rw [member, same]
  have apart : tree.tables.Disjoint other.tables := by
    have named : other.tables = ["t"] := by decide +kernel
    rw [named, List.disjoint_singleton]
    exact unnamed
  obtain ⟨kept, alike, either⟩ := execute_local e tree 0 Transcript.unlimited
  obtain ⟨-, alike', same, -⟩ := either other 0 Transcript.unlimited apart
  exact ⟨unnamed, agree, apart, kept "t" unnamed, (alike e' agree).1, alike', same⟩

end Engine

end RelEngine
