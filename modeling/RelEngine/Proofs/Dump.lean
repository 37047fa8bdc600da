import RelEngine.Proofs.CutOutput
import RelEngine.Proofs.PrintedStatements
import RelEngine.Proofs.StoreInvariant

/-!
# Dumping and restoring a table

A stored table is dumped as statements: one that makes a table with its name and its fields, and one
for each row, in order, that inserts the printed values of the row. Printed as texts and run on a new
engine, they leave the table as it was, whatever characters the names and the values hold.

On the way a name or a value passes through all stages, and each of them gives back what the one
before was given.

* The trees are printable, since user text stands in leaves only, so they are read back unchanged
  (`Relation.printable_dump`).
* They are lowered to the statements that they stand for (`Relation.ofTree_creation`,
  `Relation.ofTree_insertion`). A leaf is not taken for a clause, whatever it spells.
* The printed values are read for the types of their fields, which cover them, since the rows of a
  reachable engine are typed. So the row that is built is the row that was dumped
  (`Row.build_print`).

Each statement then finds the table as the statements before have left it. What is carried through
the run is that the table holds the rows inserted so far, and that nothing else is stored
(`Engine.restores_rows`).

* `Engine.dump_restores` — the whole way, on any new engine and with any sink.
-/

namespace RelEngine

/-! ### The statements of a dump -/

/-- The declaration of a field. -/
def Field.declaration (f : Field) : Tree :=
  .node Keyword.attribute.text [.leaf f.name, .leaf f.type.name]

namespace Relation

variable (r : Relation)

/-- The tree that makes a table of this name and with these fields. -/
def creation : Tree :=
  .node Keyword.create.text [.node Keyword.table.text [.leaf r.name],
    .node Keyword.attributes.text (r.schema.fields.map Field.declaration)]

/-- The tree that inserts a row, its values as they are printed. -/
def insertion (row : Row) : Tree :=
  .node Keyword.insert.text [.node Keyword.table.text [.leaf r.name],
    .node Keyword.values.text (row.values.map fun v => .leaf v.print)]

/-- **The dump of a table**: the tree that makes it, and then one tree for each row. -/
def dump : List Tree := r.creation :: r.rows.map r.insertion

/-- User text stands in leaves only, and every other node spells a keyword. -/
theorem printable_dump : ∀ tree ∈ r.dump, tree.Printable := by
  have leaves : ∀ texts : List String, ∀ b ∈ texts.map Tree.leaf, b.Printable := by
    intro texts b member
    obtain ⟨text, -, rfl⟩ := List.mem_map.1 member
    exact Tree.printable_leaf text
  have table : (Tree.node Keyword.table.text [.leaf r.name]).Printable :=
    Tree.printable_keyword .table (leaves [r.name])
  intro tree member
  rcases List.mem_cons.1 member with rfl | member
  · -- the fields are declared by their names and the names of their types
    have declared : ∀ b ∈ r.schema.fields.map Field.declaration, b.Printable := by
      intro b member
      obtain ⟨f, -, rfl⟩ := List.mem_map.1 member
      exact Tree.printable_keyword .attribute (leaves [f.name, f.type.name])
    have fields := Tree.printable_keyword .attributes declared
    exact Tree.printable_keyword .create (by simp [table, fields])
  · obtain ⟨row, -, rfl⟩ := List.mem_map.1 member
    have values : (Tree.node Keyword.values.text
        (row.values.map fun v => .leaf v.print)).Printable := by
      refine Tree.printable_keyword .values ?_
      simpa using leaves (row.values.map Value.print)
    exact Tree.printable_keyword .insert (by simp [table, values])

/-! ### They are lowered -/

/-- The declaration of a field is read as that field. -/
theorem declaredField_declaration (f : Field) : f.declaration.declaredField = .ok f := by
  have name : (Tree.leaf f.name).leafText = .ok f.name := rfl
  have type : (Tree.leaf f.type.name).leafText = .ok f.type.name := rfl
  rw [Field.declaration, Tree.declaredField, Tree.branches_node]
  dsimp only
  rw [Tree.is_keyword, decide_eq_true rfl, if_pos rfl, name, ok_bind, type, ok_bind,
    ColumnType.ofName?_name]

/-- **The creation** of a table is lowered to it. -/
theorem ofTree_creation : Statement.ofTree r.creation = .ok (.create r.name r.schema.fields) := by
  have table : r.creation.tableName .create = .ok r.name := Tree.tableName_node ..
  have attributes : r.creation.required .create .attributes
      = .ok (.node Keyword.attributes.text (r.schema.fields.map Field.declaration)) := by
    simp [Tree.required, creation, Tree.branch_cons, Tree.is_keyword]
  have fields : (r.schema.fields.map Field.declaration).mapM Tree.declaredField
      = .ok r.schema.fields := by
    rw [mapM_eq_ok_iff, List.forall₂_map_left_iff, List.forall₂_same]
    exact fun f _ => declaredField_declaration f
  have create : Statement.ofTree r.creation = Statement.createOfTree r.creation := by
    simp [Statement.ofTree, creation, Tree.is_keyword]
  -- the clauses are found in turn, as the statement asks for them
  rw [create, Statement.createOfTree, table, ok_bind, attributes, ok_bind, Tree.branches_node,
    fields, ok_bind]

/-- **An insertion** gives no attributes, and its literals are the printed values. -/
theorem ofTree_insertion (row : Row) : Statement.ofTree (r.insertion row)
    = .ok (.insert r.name [] (row.values.map Value.print)) := by
  have table : (r.insertion row).tableName .insert = .ok r.name := Tree.tableName_node ..
  have attributes : (r.insertion row).branch .attributes = none := by
    simp [insertion, Tree.branch_cons, Tree.is_keyword]
    rfl
  have values : (r.insertion row).required .insert .values
      = .ok (.node Keyword.values.text (row.values.map fun v => .leaf v.print)) := by
    simp [Tree.required, insertion, Tree.branch_cons, Tree.is_keyword]
  -- a printed value is the text of a leaf
  have literals : (row.values.map fun v => Tree.leaf v.print).mapM Tree.leafText
      = .ok (row.values.map Value.print) := by
    rw [mapM_eq_ok_iff, List.forall₂_map_left_iff, List.forall₂_map_right_iff, List.forall₂_same]
    exact fun v _ => rfl
  have insert : Statement.ofTree (r.insertion row)
      = Statement.insertOfTree (r.insertion row) := by
    simp [Statement.ofTree, insertion, Tree.is_keyword]
  rw [insert, Statement.insertOfTree, table, ok_bind, attributes]
  dsimp only
  rw [ok_bind, values, ok_bind, Tree.branches_node, literals, ok_bind]

end Relation

/-! ### Their rows are built again -/

namespace Row

variable {row : Row}

/-- The row under construction when its first values are in their places. -/
def firstSlots (row : Row) (n : Nat) : Slots row.schema :=
  fun i => if i.1 < n then some (row.value i) else none

/-- The next value fills the next slot. -/
theorem fill_firstSlots {n : Nat} (h : n < row.schema.size) :
    (row.firstSlots n).fill ⟨n, h⟩ (row.value ⟨n, h⟩) = row.firstSlots (n + 1) := by
  funext i
  unfold Slots.fill firstSlots
  -- the slot that is filled, and those before and behind it
  by_cases here : i = ⟨n, h⟩
  · subst here
    rw [if_pos rfl, if_pos (Nat.lt_succ_self n)]
  · have other : i.1 ≠ n := fun same => here (Fin.ext same)
    rw [if_neg here]
    refine if_congr ?_ rfl rfl
    omega

/-- The values behind the first `n` go to their places one after the other. The induction is on these
values, and their number says how far the places are filled. -/
theorem assign_print (typed : row.Typed) {rest : List Value} :
    ∀ {n : Nat}, row.values.drop n = rest → n ≤ row.schema.size →
      assign row.schema [] n (row.firstSlots n) (rest.map Value.print)
        = .ok (row.firstSlots row.schema.size) := by
  induction rest with
  | nil =>
    intro n behind le
    -- nothing is left, so all places are filled
    have all : row.schema.size ≤ n := by
      rw [← row.arity]
      exact List.drop_eq_nil_iff.1 behind
    obtain rfl : n = row.schema.size := Nat.le_antisymm le all
    rfl
  | cons v rest ih =>
    intro n behind le
    have within : n < row.values.length := by
      by_contra past
      rw [List.drop_eq_nil_of_le (Nat.le_of_not_lt past)] at behind
      cases behind
    have place : n < row.schema.size := by rwa [← row.arity]
    obtain ⟨rfl, further⟩ : row.value ⟨n, place⟩ = v ∧ row.values.drop (n + 1) = rest := by
      rw [List.drop_eq_getElem_cons within] at behind
      exact List.cons.inj behind
    have goal : target row.schema [] n = .ok ⟨n, place⟩ := dif_pos place
    -- the place is still empty, and the value has the type of its field
    have empty : (row.firstSlots n ⟨n, place⟩).isSome = false := by
      rw [firstSlots, if_neg (Nat.lt_irrefl n)]
      rfl
    have read := ColumnType.read_print (typed ⟨n, place⟩) (row.schema.field ⟨n, place⟩).name
    rw [List.map_cons, assign, goal, ok_bind]
    dsimp only
    rw [empty, if_neg Bool.false_ne_true, read, ok_bind, fill_firstSlots place]
    exact ih further place

/-- When all slots are filled, they hold the row. -/
theorem collect_firstSlots : collect (row.firstSlots row.schema.size) = .ok row.values := by
  rw [collect, mapM_eq_ok_iff, values_eq_map_value, List.forall₂_map_right_iff,
    List.forall₂_same]
  intro i _
  rw [firstSlots, if_pos i.2]

/-- **The printed values of a typed row describe that row.** -/
theorem build_print (typed : row.Typed) :
    build row.schema [] (row.values.map Value.print) = .ok row := by
  have count : (row.values.map Value.print).length = row.schema.size := by
    rw [List.length_map, row.arity]
  have assigned : assign row.schema [] 0 (fun _ => none) (row.values.map Value.print)
      = .ok (row.firstSlots row.schema.size) := assign_print typed rfl (Nat.zero_le _)
  have checked : ofValues row.schema row.values = .ok row := ofValues_eq_ok_iff.2 ⟨rfl, rfl⟩
  unfold build
  simp [count, assigned, collect_firstSlots, checked]

end Row

/-! ### Sessions of printed trees -/

namespace Engine

variable {σ : Type} [Sink σ]

/-- **Trees that succeed**, performed one after the other. -/
def Succeeds : Engine → List Tree → Prop
  | _, [] => True
  | e, tree :: rest =>
    (∃ lines, (e.perform tree).result = .ok lines) ∧ (e.perform tree).engine.Succeeds rest

/-- A session performs the trees that its texts spell, whatever the sink makes of the output. -/
theorem session_engine (inputs : List (Nat × String)) (e : Engine) (out : σ) :
    ((e.session out inputs).getLast?.map Reply.engine).getD e
      = e.performs ((inputs.map Prod.snd).flatMap Text.trees) := by
  induction inputs generalizing e out with
  | nil => rfl
  | cons input rest ih =>
    obtain ⟨elapsed, text⟩ := input
    set reply := e.executeText elapsed text out with first
    calc ((reply :: reply.engine.session reply.sink rest).getLast?.map Reply.engine).getD e
        = ((reply.engine.session reply.sink rest).getLast?.map Reply.engine).getD reply.engine :=
          -- the last reply is one to the rest, or this one
          getD_getLast?_cons Reply.engine _ _ _
      _ = reply.engine.performs ((rest.map Prod.snd).flatMap Text.trees) := ih _ _
      _ = e.performs ((((elapsed, text) :: rest).map Prod.snd).flatMap Text.trees) := by
          rw [List.map_cons, List.flatMap_cons, performs_append, first, executeText, answer_engine]

/-- The texts of a dump hold its trees, one each. -/
theorem trees_toText {trees : List Tree} (printable : ∀ tree ∈ trees, tree.Printable) :
    (trees.map Tree.toText).flatMap Text.trees = trees := by
  -- a printed tree is read back
  have each : ∀ tree ∈ trees, Text.trees tree.toText = [tree] := by
    intro tree member
    have read : Tree.ofText tree.toText = .ok tree :=
      Tree.read_of_spelledBy (Tree.spelledBy_toText (printable tree member))
    rw [Text.trees, read]
    rfl
  rw [List.flatMap_map, List.flatMap_congr each, List.flatMap_singleton']

/-- Printed trees that succeed are replied to with success, as long as the sink takes the output. -/
theorem session_results {trees : List Tree} (printable : ∀ tree ∈ trees, tree.Printable) :
    ∀ {e : Engine} {out : σ} {inputs : List (Nat × String)}, e.Succeeds trees →
      Sink.NeverFails out → inputs.map Prod.snd = trees.map Tree.toText →
      ∀ reply ∈ e.session out inputs, reply.result = .ok () := by
  induction trees with
  | nil =>
    intro e out inputs _ _ texts reply member
    obtain rfl : inputs = [] := List.map_eq_nil_iff.1 texts
    cases member
  | cons tree rest ih =>
    intro e out inputs succeeds never texts
    obtain ⟨⟨elapsed, text⟩, later, rfl, rfl, others⟩ := List.map_eq_cons_iff.1 texts
    obtain ⟨⟨lines, ended⟩, succeeds⟩ := succeeds
    -- the text is printed from its tree and read as it
    have delivered : e.executeText elapsed tree.toText out
        = (e.perform tree).deliver elapsed out := executeText_toText (printable tree (by simp)) ..
    obtain ⟨result, sink⟩ := (e.perform tree).deliver_of_neverFails elapsed never
    rw [session, delivered, List.forall_mem_cons]
    constructor
    · rw [result, ended]
      rfl
    · -- the sink takes everything from here on, too
      rw [Outcome.deliver_engine, sink]
      exact ih (fun t member => printable t (List.mem_cons_of_mem _ member)) succeeds
        (never.putLines _).2 others

/-! ### The table is made again -/

variable {r : Relation}

/-- A tree makes the change that its statement makes. -/
theorem perform_change {e : Engine} {tree : Tree} {s : Statement} {name : String}
    {table : Option Relation} (lowered : Statement.ofTree tree = .ok s)
    (ran : (e.catalog.run e.memory e.renderer s).result = .ok [] ∧
      e.catalog.ChangesAt name table (e.catalog.run e.memory e.renderer s).catalog) :
    (e.perform tree).result = .ok [] ∧
      e.catalog.ChangesAt name table (e.perform tree).engine.catalog := by
  rw [perform_result_of_ok lowered, perform_catalog_of_ok lowered]
  exact ran

/-- **The rows come back one by one**: with some rows of the table there, inserting further ones puts
them behind these. -/
theorem restores_rows {rows : List Row} (own : ∀ row ∈ rows, row.schema = r.schema ∧ row.Typed) :
    ∀ {e : Engine} {done : List Row},
      e.catalog.find? r.name = some { r with rows := done } →
      e.Succeeds (rows.map r.insertion) ∧
        e.catalog.ChangesAt r.name (some { r with rows := done ++ rows })
          (e.performs (rows.map r.insertion)).catalog := by
  induction rows with
  | nil =>
    intro e done there
    rw [List.append_nil]
    exact ⟨trivial, Catalog.changesAt_self there⟩
  | cons row rows ih =>
    intro e done there
    obtain ⟨schema, typed⟩ := own row (by simp)
    have built : Row.build r.schema [] (row.values.map Value.print) = .ok row := by
      rw [← schema]
      exact Row.build_print typed
    obtain ⟨ended, change⟩ := perform_change (r.ofTree_insertion row)
      (e.catalog.runInsert_of_built there built)
    -- the other rows go behind this one, into the table as it is now
    have there' : (e.perform (r.insertion row)).engine.catalog.find? r.name
        = some { r with rows := done ++ [row] } := by
      rw [change r.name, if_pos rfl]
      rfl
    obtain ⟨succeeds, further⟩ := ih (fun row' member => own row' (by simp [member])) there'
    refine ⟨⟨⟨[], ended⟩, succeeds⟩, ?_⟩
    rw [List.append_assoc] at further
    exact change.trans further

/-- **The dump of a sound table makes it again**, wherever its name is free. -/
theorem restores_dump (sound : r.Sound) {e : Engine} (free : e.catalog.find? r.name = none) :
    e.Succeeds r.dump ∧
      e.catalog.ChangesAt r.name (some r) (e.performs r.dump).catalog := by
  have made : Schema.ofFields r.schema.fields = .ok r.schema := Schema.ofFields_eq_ok_iff.2 rfl
  obtain ⟨ended, change⟩ := perform_change r.ofTree_creation
    (e.catalog.runCreate_of_free free made)
  have there := change r.name
  rw [if_pos rfl] at there
  have own : ∀ row ∈ r.rows, row.schema = r.schema ∧ row.Typed := fun row member =>
    ⟨sound.row_schema row member, sound.row_typed row member⟩
  obtain ⟨succeeds, further⟩ := restores_rows own there
  exact ⟨⟨⟨[], ended⟩, succeeds⟩, change.trans further⟩

/-- **A dump restores the table.** Take a table of a reachable engine, and run the printed form of
its dump on a new engine, text by text, with any settings and any sink. The engine then has this
table, with its name, its fields and its rows in order, and no other. If the sink takes all of the
output, then every single text succeeds. -/
theorem dump_restores {e : Engine} (reachable : e.Reachable) {name : String} {r : Relation}
    (there : e.catalog.find? name = some r) (s : Settings) (out : σ)
    {inputs : List (Nat × String)} (dumped : inputs.map Prod.snd = r.dump.map Tree.toText) :
    let replies := (ofSettings s).session out inputs
    (Sink.NeverFails out → ∀ reply ∈ replies, reply.result = .ok ()) ∧
      ∃ last, replies.getLast? = some last ∧ last.engine.catalog.find? name = some r ∧
        ∀ other, other ≠ name → last.engine.catalog.find? other = none := by
  intro replies
  obtain ⟨rfl, sound⟩ := Catalog.sound_iff.1 reachable.catalog_sound name r there
  obtain ⟨succeeds, change⟩ := restores_dump sound (e := ofSettings s) rfl
  have printable := r.printable_dump
  refine ⟨fun never => session_results printable succeeds never dumped, ?_⟩
  -- there is a first text, so there is a last reply
  have texts : replies ≠ [] := by
    obtain ⟨input, rest, rfl, -⟩ : ∃ input rest, inputs = input :: rest ∧ _ :=
      List.map_eq_cons_iff.1 dumped
    exact List.cons_ne_nil _ _
  have last : replies.getLast? = some (replies.getLast texts) := List.getLast?_eq_some_getLast texts
  -- the session performs the trees of the dump, one after the other
  have ended : (replies.getLast texts).engine = (ofSettings s).performs r.dump := by
    have performed := session_engine inputs (ofSettings s) out
    rw [dumped, trees_toText printable] at performed
    change (replies.getLast?.map Reply.engine).getD _ = _ at performed
    rwa [last] at performed
  refine ⟨_, last, ?_, ?_⟩
  · rw [ended, change r.name, if_pos rfl]
  · intro other apart
    rw [ended, change other, if_neg apart]
    rfl

/-- A name of quotes, a backslash and a line feed; an empty field name and one that is a keyword;
texts that are empty, blank, escaped or clauses of their own. -/
theorem dump_restores_awkward :
    let name := "\"\\\n("
    let e := (ofSettings .standard).calls
      ([.node "CREATE" [.node "TABLE" [.leaf name],
          .node "ATTRIBUTES" [.node "ATTRIBUTE" [.leaf "", .leaf "integer"],
            .node "ATTRIBUTE" [.leaf "VALUES", .leaf "str20"]]],
        .node "INSERT" [.node "TABLE" [.leaf name], .node "VALUES" [.leaf "-007", .leaf ""]],
        .node "INSERT" [.node "TABLE" [.leaf name],
          .node "VALUES" [.leaf "+5", .leaf "(VALUES \"\\\")\t"]]].map
        fun tree => .execute 0 tree Transcript.unlimited)
    let s : Schema := ⟨[⟨"", .int⟩, ⟨"VALUES", .text⟩], by decide, by decide⟩
    let r : Relation := ⟨name, s,
      [⟨s, [.int (-7), .text ""], rfl⟩, ⟨s, [.int 5, .text "(VALUES \"\\\")\t"], rfl⟩]⟩
    let texts := r.dump.map Tree.toText
    let replies :=
      (ofSettings .standard).session Transcript.unlimited (texts.map fun text => (0, text))
    e.catalog.find? name = some r ∧
      texts = [
        "(CREATE (TABLE \"\\\"\\\\\n(\") (ATTRIBUTES (ATTRIBUTE \"\" INT) (ATTRIBUTE VALUES STR20)))",
        "(INSERT (TABLE \"\\\"\\\\\n(\") (VALUES -7 \"\"))",
        "(INSERT (TABLE \"\\\"\\\\\n(\") (VALUES 5 \"(VALUES \\\"\\\\\\\")\t\"))"] ∧
      (∀ reply ∈ replies, reply.result = .ok ()) ∧
      ∃ last, replies.getLast? = some last ∧ last.engine.catalog.find? name = some r := by
  intro name e s r texts replies
  have reachable : e.Reachable := reachable_calls _ _
  have there : e.catalog.find? name = some r := by decide +kernel
  -- each text is given with the time it takes, which is not of interest
  have dumped : (texts.map fun text => (0, text)).map Prod.snd = r.dump.map Tree.toText := by
    rw [List.map_map]
    exact List.map_id _
  obtain ⟨succeed, last, isLast, restored, -⟩ :=
    dump_restores reachable there .standard Transcript.unlimited dumped
  exact ⟨there, by decide +kernel, succeed Transcript.neverFails_unlimited, last, isLast, restored⟩

end Engine

end RelEngine
