import RelEngine.Proofs.CatalogChanges
import RelEngine.Proofs.Delivery
import RelEngine.Proofs.StatementErrors

/-!
# Atomicity

What a caller learns about the catalog from an error. An error that is not one of output is the
statement's own, and the statement has changed nothing then. An error of output comes after the
statement, from writing its lines or its report, so the statement has been carried out in full: the
catalog is the one that it leaves when the sink takes everything.

The first half is `Catalog.run_cases`, the second that no statement fails with an error of output
(`Catalog.run_failsOnly`) while delivery adds no other (`Outcome.deliver_of_ok`).
-/

namespace RelEngine.Engine

variable {σ : Type} [Sink σ] {e : Engine} {elapsed : Nat} {tree : Tree} {out : σ}

theorem execute_engine : (e.execute elapsed tree out).engine = (e.perform tree).engine :=
  Outcome.deliver_engine _ _ _

/-- A performed tree fails and leaves the catalog alone, or is a statement that is carried out. -/
theorem perform_cases (e : Engine) (tree : Tree) :
    (∃ err, (e.perform tree).result = .error err ∧ err.OfStatement ∧
      (e.perform tree).engine.catalog = e.catalog) ∨
    (∃ s lines, Statement.ofTree tree = .ok s ∧ (e.perform tree).result = .ok lines ∧
      e.catalog.CarriesOut s (e.perform tree).engine.catalog) := by
  cases lowered : Statement.ofTree tree with
  | error err =>
    -- what is no statement never gets to the catalog
    exact .inl ⟨err, perform_result_of_error lowered, Statement.ofTree_failsOnly tree err lowered,
      perform_catalog_of_error lowered⟩
  | ok s =>
    rw [perform_result_of_ok lowered, perform_catalog_of_ok lowered]
    have errors := Catalog.run_failsOnly e.catalog e.memory e.renderer s
    rcases e.catalog.run_cases e.memory e.renderer s with ⟨err, failed, same⟩ | ⟨lines, ended, done⟩
    · exact .inl ⟨err, failed, errors err failed, same⟩
    · exact .inr ⟨s, lines, rfl, ended, done⟩

/-- A statement that fails has changed nothing. -/
theorem perform_catalog_of_failed {err : Error} (h : (e.perform tree).result = .error err) :
    (e.perform tree).engine.catalog = e.catalog := by
  rcases e.perform_cases tree with ⟨-, -, -, same⟩ | ⟨s, lines, -, ended, -⟩
  · exact same
  · rw [ended] at h
    cases h

/-- A caller who gets an error of the statement's kind gets the statement's own; any other error is
the sink's refusal of a statement that has succeeded. -/
theorem execute_error_cases {err : Error}
    (failed : (e.execute elapsed tree out).result = .error err) :
    (e.perform tree).result = .error err ∨
      (err = .outputClosed ∧ ∃ lines, (e.perform tree).result = .ok lines) := by
  unfold execute at failed
  cases ended : (e.perform tree).result with
  | error own =>
    rw [Outcome.deliver_of_error ended] at failed
    exact .inl (by rw [Except.error.inj failed])
  | ok lines =>
    -- the statement had a result, so the error is the sink's
    rcases Outcome.deliver_of_ok ended elapsed out with taken | refused
    · rw [taken] at failed
      cases failed
    · rw [refused] at failed
      cases failed
      exact .inr ⟨rfl, lines, rfl⟩

/-- Into a sink that never fails, a result is delivered. -/
theorem execute_of_neverFails {lines : List String} (ended : (e.perform tree).result = .ok lines)
    (never : Sink.NeverFails out) : (e.execute elapsed tree out).result = .ok () := by
  have delivered := ((e.perform tree).deliver_of_neverFails elapsed never).1
  rw [ended] at delivered
  exact delivered

/-- **Failed statements are atomic.** When a call fails with an error that is not one of output, the
catalog is the one before. When it fails with an error of output, the statement was a query and the
catalog is the one before, or it was a change that has been carried out in full, and leaves the
catalog that it leaves, ending well, with any sink that never fails. -/
theorem execute_error_atomic {err : Error}
    (failed : (e.execute elapsed tree out).result = .error err) :
    (¬ err.IsIo → (e.execute elapsed tree out).engine.catalog = e.catalog) ∧
    (err.IsIo → ∃ s, Statement.ofTree tree = .ok s ∧
      (s.keyword = .select ∧ (e.execute elapsed tree out).engine.catalog = e.catalog ∨
        s.keyword ≠ .select ∧
          e.catalog.CarriesOut s (e.execute elapsed tree out).engine.catalog ∧
          ∀ {τ : Type} [Sink τ] (elapsed' : Nat) (other : τ), Sink.NeverFails other →
            (e.execute elapsed' tree other).result = .ok () ∧
              (e.execute elapsed' tree other).engine.catalog
                = (e.execute elapsed tree out).engine.catalog)) := by
  rw [execute_engine]
  have error := execute_error_cases failed
  rcases e.perform_cases tree with ⟨own, ended, ofStatement, same⟩ | ⟨s, lines, lowered, ended, done⟩
  · -- the statement has failed, so the error is its own
    have : own = err := by
      rw [ended] at error
      rcases error with h | ⟨-, lines, h⟩
      · exact Except.error.inj h
      · cases h
    subst this
    exact ⟨fun _ => same, fun io => absurd io ofStatement⟩
  · -- the statement has succeeded, so the error is the sink's
    have : err = .outputClosed := by
      rw [ended] at error
      rcases error with h | ⟨h, -⟩
      · cases h
      · exact h
    subst this
    refine ⟨fun notIo => absurd trivial notIo, fun _ => ⟨s, lowered, ?_⟩⟩
    -- a query has left the catalog as it was, every other statement has changed it
    by_cases query : s.keyword = .select
    · exact .inl ⟨query, done.eq_of_select query⟩
    · refine .inr ⟨query, done, fun elapsed' other never => ?_⟩
      rw [execute_engine]
      exact ⟨execute_of_neverFails ended never, rfl⟩

/-- A table is made although the sink does not even take the report. -/
theorem execute_error_atomic_closed :
    let e := ofSettings .standard
    let tree : Tree := .node "CREATE" [.node "TABLE" [.leaf "s"],
      .node "ATTRIBUTES" [.node "ATTRIBUTE" [.leaf "a", .leaf "INT"]]]
    (e.execute 0 tree (Transcript.limited 0)).result = .error .outputClosed ∧
      ∃ s, Statement.ofTree tree = .ok s ∧ s.keyword ≠ .select ∧
        e.catalog.CarriesOut s (e.execute 0 tree (Transcript.limited 0)).engine.catalog := by
  intro e tree
  have failed : (e.execute 0 tree (Transcript.limited 0)).result = .error .outputClosed := by
    decide +kernel
  have create : Statement.ofTree tree = .ok (.create "s" [⟨"a", .int⟩]) := by decide +kernel
  obtain ⟨s, lowered, atomic⟩ := (execute_error_atomic failed).2 trivial
  have same : s = .create "s" [⟨"a", .int⟩] := by
    rw [create] at lowered
    exact (Except.ok.inj lowered).symm
  -- the statement is no query, so it was carried out
  rcases atomic with ⟨query, -⟩ | ⟨change, done, -⟩
  · rw [same] at query
    cases query
  · exact ⟨failed, s, lowered, change, done⟩

end RelEngine.Engine
