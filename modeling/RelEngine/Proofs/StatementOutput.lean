import RelEngine.Proofs.LineFeeds
import RelEngine.Proofs.TableLayout

/-!
# What a statement puts out

A text that is no tree does nothing and puts out nothing. Every other text ends its output with one
report, whether its statement succeeds or fails. Above the report stands a table or nothing. A table
takes a query that has been lowered, that gives at least one row, and all of whose rows have a line
(`Engine.Tabulates`); it is the line with the number of rows, the header and the lines of the rows.

There is no third case, because a table is made before its first line is put out. A query may fail
on a row in three places: in its condition, on a row that it starts from; in the columns that
`DISTINCT` compares, on a row that the condition has kept; and in the line, on a row of the result
(`Query.FailsOn`). In each of the three loops one row is enough, wherever it stands, and the loops
before it have put out nothing.

* `Engine.perform_result_cases` — a statement that succeeds has a table or no lines;
* `Engine.perform_result_of_failsOn` — a query that fails on any row fails, and so it has no table;
* `Engine.executeText_output` — all output of a text.
-/

namespace RelEngine

/-! ### Loops that fail on a row -/

section Loops

variable {row : Row} {rows : List Row} {err : Error}

/-- A condition that fails on any row fails the loop. -/
theorem keepRows_of_error {condition : Row → Except Error Bool} (member : row ∈ rows)
    (fails : condition row = .error err) : ∃ err', keepRows condition rows = .error err' := by
  rcases keepRows_cases condition rows with ⟨-, failed⟩ | ⟨decided, -⟩
  · exact failed
  · obtain ⟨b, decided⟩ := decided row member
    rw [fails] at decided
    cases decided

/-- A loop over distinct rows that comes to an end has found the key of every row. -/
theorem firstRows_keys {key : Row → Except Error (List Value)} {seen : List (List Value)}
    {kept : List Row} (h : firstRows key seen rows = .ok kept) :
    ∀ row ∈ rows, ∃ k, key row = .ok k := by
  induction rows generalizing seen kept with
  | nil => exact fun _ member => nomatch member
  | cons first rest ih =>
    obtain ⟨k, found, h⟩ := bind_eq_ok_iff.1 h
    have others : ∀ row ∈ rest, ∃ k, key row = .ok k := by
      -- a row that repeats another and a row that does not both have had their key found
      split at h
      · exact ih h
      · obtain ⟨kept, keep, -⟩ := bind_eq_ok_iff.1 h
        exact ih keep
    rw [List.forall_mem_cons]
    exact ⟨⟨k, found⟩, others⟩

end Loops

/-- **A query fails on a row**, in one of three places. -/
inductive Query.FailsOn (q : Query) (tables : List Relation) (r : Renderer) (row : Row) : Prop
  /-- The condition fails on a row that the query starts from. -/
  | condition {source : List Row} {err : Error} (start : sourceRows tables = .ok source)
      (member : row ∈ source) (fails : Condition.admits q.selection row = .error err)
  /-- The columns to compare cannot be had from a row that the condition has kept. -/
  | key {source kept : List Row} {err : Error} (distinct : q.distinct = true)
      (start : sourceRows tables = .ok source)
      (keep : keepRows (Condition.admits q.selection) source = .ok kept)
      (member : row ∈ kept) (fails : q.key row = .error err)
  /-- A row of the result has no line. -/
  | line {rows : List Row} {err : Error} (given : q.rows tables = .ok rows)
      (member : row ∈ rows) (fails : r.line row q.projection.keys = .error err)

/-- A change of the catalog has no lines to print. -/
theorem Catalog.run_lines_of_change {c : Catalog} {m : Memory} {r : Renderer} {s : Statement}
    {lines : List String} (change : s.keyword ≠ .select)
    (ended : (c.run m r s).result = .ok lines) : lines = [] := by
  -- every change fails or ends without lines, and this one has ended
  have silent : ∀ {effect : Effect}, effect.result = .ok lines →
      ((∃ err, effect.result = .error err) ∨ effect.result = .ok []) → lines = [] := by
    rintro effect ended (⟨err, failed⟩ | nothing)
    · rw [ended] at failed
      cases failed
    · rw [ended] at nothing
      exact Except.ok.inj nothing
  refine silent ended ?_
  cases s with
  | create table fields =>
    rw [run, runCreate]
    split
    · exact .inl ⟨_, rfl⟩
    · exact .inr rfl
  | insert table attributes literals =>
    rw [run, runInsert]
    split
    · exact .inl ⟨_, rfl⟩
    split
    · exact .inl ⟨_, rfl⟩
    · exact .inr rfl
  | select q => exact absurd rfl change
  | delete table selection =>
    rw [run, runDelete]
    split
    · exact .inl ⟨_, rfl⟩
    dsimp only
    split
    · exact .inl ⟨_, rfl⟩
    · exact .inr rfl
  | drop table =>
    rw [run, runDrop]
    split
    · exact .inl ⟨_, rfl⟩
    · exact .inr rfl

namespace Engine

/-! ### Tables -/

/-- **A statement has a table**: it is a query with at least one row, and all of its rows have a
line. -/
structure Tabulates (e : Engine) (tree : Tree) (q : Query) (sample : Row) (rest : List Row)
    (lines : List String) : Prop where
  lowered : Statement.ofTree tree = .ok (.select q)
  given : (q.execute e.catalog e.memory).rows = .ok (sample :: rest)
  each : List.Forall₂ (fun row line => e.renderer.line row q.projection.keys = .ok line)
    (sample :: rest) lines

variable {e : Engine} {tree : Tree} {q : Query} {sample : Row} {rest : List Row}
  {lines : List String}

/-- What performing a query gives are its rows, laid out. -/
theorem perform_result_of_select (lowered : Statement.ofTree tree = .ok (.select q)) :
    (e.perform tree).result = (q.execute e.catalog e.memory).rows.bind
      fun rows => e.renderer.table rows q.projection := by
  rw [perform_result_of_ok lowered]
  rfl

theorem Tabulates.result (h : e.Tabulates tree q sample rest lines) :
    (e.perform tree).result = .ok (s!"Rows returned: {(sample :: rest).length}"
      :: e.renderer.header sample q.projection.headers :: lines) := by
  rw [perform_result_of_select h.lowered, h.given]
  change e.renderer.table (sample :: rest) q.projection = _
  rw [Renderer.table, mapM_eq_ok_iff.2 h.each, ok_bind]

/-- **A statement fails, has no lines, or has a table.** -/
theorem perform_result_cases (e : Engine) (tree : Tree) :
    (∃ err, (e.perform tree).result = .error err) ∨ (e.perform tree).result = .ok [] ∨
      ∃ q sample rest lines, e.Tabulates tree q sample rest lines := by
  cases ended : (e.perform tree).result with
  | error err => exact .inl ⟨err, rfl⟩
  | ok printed =>
    refine .inr ?_
    cases lowered : Statement.ofTree tree with
    | error err =>
      rw [perform_result_of_error lowered] at ended
      cases ended
    | ok s =>
      -- among the statements that end only a query has something to print
      by_cases query : ∃ q, s = .select q
      · obtain ⟨q, rfl⟩ := query
        rw [perform_result_of_select lowered] at ended
        obtain ⟨rows, given, table⟩ := bind_eq_ok_iff.1 ended
        cases rows with
        | nil => exact .inl (congrArg _ (Except.ok.inj table).symm)
        | cons sample rest =>
          obtain ⟨lines, each, -⟩ := Renderer.exists_of_table table
          exact .inr ⟨q, sample, rest, lines, lowered, given, each⟩
      · have change : s.keyword ≠ .select := by
          intro keyword
          cases s with
          | select q => exact query ⟨q, rfl⟩
          | _ => cases keyword
        rw [perform_result_of_ok lowered] at ended
        exact .inl (congrArg _ (Catalog.run_lines_of_change change ended))

end Engine

/-- A query that fails on any row has no rows, or rows of which one has no line. -/
theorem Query.FailsOn.rows_cases {q : Query} {tables : List Relation} {r : Renderer} {row : Row}
    (h : q.FailsOn tables r row) :
    (∃ err, q.rows tables = .error err) ∨
      ∃ rows, q.rows tables = .ok rows ∧ row ∈ rows ∧
        ∃ err, r.line row q.projection.keys = .error err := by
  -- the loop in which the query fails comes to no end; the loop over the lines is run last
  cases h with
  | condition start member fails =>
    obtain ⟨err, failed⟩ := keepRows_of_error member fails
    refine .inl ⟨err, ?_⟩
    rw [rows, start, ok_bind, failed, error_bind]
  | @key source kept err distinct start keep member fails =>
    left
    rw [rows, start, ok_bind, keep, ok_bind, if_pos distinct]
    cases ended : firstRows q.key [] kept with
    | error err' => exact ⟨err', rfl⟩
    | ok rows =>
      -- then all keys were found, and this one was not
      obtain ⟨k, found⟩ := firstRows_keys ended row member
      rw [fails] at found
      cases found
  | line given member fails => exact .inr ⟨_, given, member, _, fails⟩

namespace Engine

variable {e : Engine} {tree : Tree} {q : Query} {tables : List Relation} {row : Row}

/-- **One row is enough**: a query that fails on a row, wherever the row stands, fails. -/
theorem perform_result_of_failsOn (lowered : Statement.ofTree tree = .ok (.select q))
    (there : q.relations e.catalog = .ok tables) (h : q.FailsOn tables e.renderer row) :
    ∃ err, (e.perform tree).result = .error err := by
  rw [perform_result_of_select lowered, Query.execute_rows_eq e.memory there]
  rcases h.rows_cases with ⟨err, failed⟩ | ⟨rows, given, member, err, fails⟩
  · exact ⟨err, by rw [failed]; rfl⟩
  · rw [given]
    change ∃ err, e.renderer.table rows q.projection = .error err
    cases ended : e.renderer.table rows q.projection with
    | error err' => exact ⟨err', rfl⟩
    | ok printed =>
      -- a table has a line for each of its rows, so for this one
      cases rows with
      | nil => cases member
      | cons sample rest =>
        obtain ⟨lines, each, -⟩ := Renderer.exists_of_table ended
        obtain ⟨line, -, shown⟩ := exists_of_mem_right each.flip member
        rw [fails] at shown
        cases shown

/-! ### All output of a text -/

variable {σ : Type} [Sink σ] {out : σ}

/-- **The lines above a report**: a table, if the statement has one, or none. -/
inductive Above (e : Engine) (tree : Tree) : List String → Prop
  | table {q : Query} {sample : Row} {rest : List Row} {lines : List String}
      (h : e.Tabulates tree q sample rest lines) :
      Above e tree (s!"Rows returned: {(sample :: rest).length}"
        :: e.renderer.header sample q.projection.headers :: lines)
  | nothing (h : ∀ q sample rest lines, ¬ e.Tabulates tree q sample rest lines) : Above e tree []

/-- What a tree prints is the table that its statement has, or nothing. -/
theorem above_printed (e : Engine) (tree : Tree) : e.Above tree (e.perform tree).printed := by
  rw [Outcome.printed]
  by_cases table : ∃ q sample rest lines, e.Tabulates tree q sample rest lines
  · obtain ⟨q, sample, rest, lines, h⟩ := table
    rw [h.result]
    exact .table h
  · have nothing : e.Above tree [] :=
      .nothing fun q sample rest lines h => table ⟨q, sample, rest, lines, h⟩
    rcases e.perform_result_cases tree with ⟨err, failed⟩ | silent | other
    · rw [failed]
      exact nothing
    · rw [silent]
      exact nothing
    · exact absurd other table

/-- **The output of a text**, run with a sink that never fails. A text that is no tree puts out
nothing and does nothing to the engine. Any other ends with one report, of what its statement has
cost, whether the statement succeeds or fails, and a report is three lines and a blank one. Above it
stand the lines of the table, if the statement has one, and nothing otherwise. When the statement
fails nothing stands there, and a query that fails on any of its rows is a statement that fails. -/
theorem executeText_output (e : Engine) (elapsed : Nat) (text : String)
    (never : Sink.NeverFails out) :
    let reply := e.executeText elapsed text out
    (∀ fault, Tree.ofText text = .error fault →
      reply.sink = out ∧ reply.engine = e ∧ reply.result = .error (.unreadable fault)) ∧
    (∀ tree, Tree.ofText text = .ok tree →
      let report := Cost.lines ⟨elapsed, reply.engine.disk.counters.since e.disk.counters⟩
      (∃ first second third, report = [first, second, third, ""] ∧
        ∀ line ∈ [first, second, third], Text.OneLine line ∧ line ≠ "") ∧
      ∃ above, e.Above tree above ∧ reply.sink = (Sink.putLines out (above ++ report)).1 ∧
        (∀ err, reply.result = .error err → above = []) ∧
        (∀ q tables row, Statement.ofTree tree = .ok (.select q) →
          q.relations e.catalog = .ok tables → q.FailsOn tables e.renderer row →
            (∃ err, reply.result = .error err) ∧ above = [])) := by
  intro reply
  constructor
  · intro fault unreadable
    have unanswered : reply = ⟨e, out, [], .error (.unreadable fault)⟩ := by
      change e.executeText elapsed text out = _
      rw [executeText, prepare, unreadable]
      rfl
    rw [unanswered]
    exact ⟨rfl, rfl, rfl⟩
  · intro tree spelled report
    have delivered : reply = (e.perform tree).deliver elapsed out := by
      change e.executeText elapsed text out = _
      rw [executeText, prepare, spelled]
      rfl
    have reported : report = (e.perform tree).report elapsed := by
      change Cost.lines ⟨elapsed, reply.engine.disk.counters.since e.disk.counters⟩ = _
      rw [delivered, Outcome.deliver_engine]
      rfl
    obtain ⟨result, sink⟩ := (e.perform tree).deliver_of_neverFails elapsed never
    rw [← delivered] at result sink
    -- the caller hears of an error if the statement has failed, and then nothing is printed
    have failed : ∀ err, (e.perform tree).result = .error err →
        reply.result = .error err ∧ (e.perform tree).printed = [] := by
      intro err ended
      rw [ended] at result
      refine ⟨result, ?_⟩
      rw [Outcome.printed, ended]
    -- the report comes last, behind what the tree prints
    refine ⟨Cost.lines_shape _, (e.perform tree).printed, e.above_printed tree, ?_, ?_, ?_⟩
    · rw [sink, reported]
    · intro err told
      cases ended : (e.perform tree).result with
      | error own => exact (failed own ended).2
      | ok lines =>
        rw [told, ended] at result
        cases result
    · intro q tables row lowered there fails
      obtain ⟨err, ended⟩ := perform_result_of_failsOn lowered there fails
      exact ⟨⟨err, (failed err ended).1⟩, (failed err ended).2⟩

/-- Of two joined rows the first satisfies the condition, and the last is the only one for which the
ambiguous name behind `OR` is looked up. The report is all that is put out. -/
theorem executeText_output_last_row :
    let e := (ofSettings .standard).calls
      ([.node "CREATE" [.node "TABLE" [.leaf "t"],
          .node "ATTRIBUTES" [.node "ATTRIBUTE" [.leaf "a", .leaf "INT"],
            .node "ATTRIBUTE" [.leaf "b", .leaf "INT"]]],
        .node "CREATE" [.node "TABLE" [.leaf "s"],
          .node "ATTRIBUTES" [.node "ATTRIBUTE" [.leaf "a", .leaf "INT"]]],
        .node "INSERT" [.node "TABLE" [.leaf "t"], .node "VALUES" [.leaf "5", .leaf "1"]],
        .node "INSERT" [.node "TABLE" [.leaf "t"], .node "VALUES" [.leaf "5", .leaf "2"]],
        .node "INSERT" [.node "TABLE" [.leaf "s"], .node "VALUES" [.leaf "5"]]].map
        fun tree => .execute 0 tree Transcript.unlimited)
    let text :=
      "(SELECT (COLUMNS (COLUMN t.b)) (FROM (TABLE t) (TABLE s)) (WHERE (OR (= t.b 1) (= a 5))))"
    let condition : Condition := .or (.equal "t.b" "1") (.equal "a" "5")
    let schema : Schema := ⟨[⟨"t#a", .int⟩, ⟨"t#b", .int⟩, ⟨"s#a", .int⟩], by decide, by decide⟩
    let first : Row := ⟨schema, [.int 5, .int 1, .int 5], rfl⟩
    let last : Row := ⟨schema, [.int 5, .int 2, .int 5], rfl⟩
    let reply := e.executeText 7 text Transcript.unlimited
    Sink.NeverFails Transcript.unlimited ∧ condition.holds first = .ok true ∧
      condition.holds last = .error (.ambiguousColumn "a") ∧
      (∃ err, reply.result = .error err) ∧
      reply.sink = (Sink.putLines Transcript.unlimited
        (Cost.lines ⟨7, reply.engine.disk.counters.since e.disk.counters⟩)).1 := by
  intro e text condition schema first last reply
  have never := Transcript.neverFails_unlimited
  let tree : Tree := .node "SELECT" [.node "COLUMNS" [.node "COLUMN" [.leaf "t.b"]],
    .node "FROM" [.node "TABLE" [.leaf "t"], .node "TABLE" [.leaf "s"]],
    .node "WHERE" [.node "OR" [.node "=" [.leaf "t.b", .leaf "1"],
      .node "=" [.leaf "a", .leaf "5"]]]]
  let q : Query := ⟨⟨["t.b"], ["t.b"]⟩, false, ["t", "s"], some condition⟩
  let pair : Schema := ⟨[⟨"a", .int⟩, ⟨"b", .int⟩], by decide, by decide⟩
  let single : Schema := ⟨[⟨"a", .int⟩], by decide, by decide⟩
  let t : Relation := ⟨"t", pair, [⟨pair, [.int 5, .int 1], rfl⟩, ⟨pair, [.int 5, .int 2], rfl⟩]⟩
  let s : Relation := ⟨"s", single, [⟨single, [.int 5], rfl⟩]⟩
  have spelled : Tree.ofText text = .ok tree := by decide +kernel
  have lowered : Statement.ofTree tree = .ok (.select q) := by decide +kernel
  have there : q.relations e.catalog = .ok [t, s] := by decide +kernel
  have start : Query.sourceRows [t, s] = .ok [first, last] := by decide +kernel
  have holds : condition.holds first = .ok true := by decide +kernel
  have ambiguous : condition.holds last = .error (.ambiguousColumn "a") := by decide +kernel
  -- the ambiguous name is met on the last row alone
  have fails : q.FailsOn [t, s] e.renderer last := .condition start (by simp) ambiguous
  obtain ⟨-, ofTree⟩ := executeText_output e 7 text never
  obtain ⟨-, above, -, sink, -, onRow⟩ := ofTree tree spelled
  obtain ⟨failed, nothing⟩ := onRow q [t, s] last lowered there fails
  rw [nothing, List.nil_append] at sink
  exact ⟨never, holds, ambiguous, failed, sink⟩

end Engine

end RelEngine
