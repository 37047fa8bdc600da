import RelEngine.Batch

/-!
# Reachable engines

An engine is made from settings and then called, any number of times: to run a tree, a text or a
batch, each time with a sink of the caller's choice, one that refuses to take output included. The
engines that arise so are the **reachable** ones.

Whatever a call is, it changes the engine by performing statement trees one after the other
(`Engine.calls_eq_performs`). The sink, the clock and the texts that are no trees have no part in
it. So an invariant of all reachable engines has two obligations only, that it holds of a new engine
and that performing one tree keeps it (`Engine.Reachable.invariant`); the run over the lines of a
batch is done here once.
-/

namespace RelEngine

/-- **A call on an engine**, with the sink it is given. -/
inductive Call where
  | execute {σ : Type} [Sink σ] (elapsed : Nat) (tree : Tree) (out : σ)
  | executeText {σ : Type} [Sink σ] (elapsed : Nat) (text : String) (out : σ)
  | runBatch {σ : Type} [Sink σ] (clock : Nat → Nat) (input : Text.Bytes) (out : σ)

/-! ### The trees that a call performs -/

/-- The tree that a text spells, if it spells one. -/
def Text.trees (text : String) : List Tree := (Tree.ofText text).toOption.toList

/-- The tree in a line of a batch, trimmed. -/
def Batch.lineTrees (text : String) : List Tree := if isSkipped text then [] else Text.trees text

/-- The trees in the lines of a batch, as far as the lines can be read. -/
def Batch.trees : List Text.Bytes → List Tree
  | [] => []
  | bytes :: rest =>
    match Text.decode bytes with
    | none => []
    | some line => lineTrees (Text.trimmed line) ++ trees rest

/-- The trees that a call performs. -/
def Call.trees : Call → List Tree
  | @Call.execute _ _ _ tree _ => [tree]
  | @Call.executeText _ _ _ text _ => Text.trees text
  | @Call.runBatch _ _ _ input _ => Batch.trees (Text.linesOf input)

namespace Engine

/-- The engine after a call. -/
def call (e : Engine) : Call → Engine
  | @Call.execute _ _ elapsed tree out => (e.execute elapsed tree out).engine
  | @Call.executeText _ _ elapsed text out => (e.executeText elapsed text out).engine
  | @Call.runBatch _ _ clock input out => (e.runBatch clock input out).progress.engine

/-- The engine after some calls, one after the other. -/
def calls (e : Engine) (cs : List Call) : Engine := cs.foldl Engine.call e

/-- **Reachable engines**: those that some calls lead to from a new engine. -/
def Reachable (e : Engine) : Prop :=
  ∃ (s : Settings) (cs : List Call), (ofSettings s).calls cs = e

theorem reachable_calls (s : Settings) (cs : List Call) : ((ofSettings s).calls cs).Reachable :=
  ⟨s, cs, rfl⟩

/-- Reachable engines stay so. -/
theorem Reachable.call {e : Engine} (h : e.Reachable) (c : Call) : (e.call c).Reachable := by
  obtain ⟨s, cs, rfl⟩ := h
  -- the same start, and one call more at the end
  refine ⟨s, cs ++ [c], ?_⟩
  rw [calls, List.foldl_append, List.foldl_cons, List.foldl_nil]
  rfl

/-! ### Calls perform trees -/

/-- The engine after some trees, performed one after the other. -/
def performs (e : Engine) (trees : List Tree) : Engine :=
  trees.foldl (fun e tree => (e.perform tree).engine) e

/-- Trees are performed one after the other. -/
theorem performs_append (e : Engine) (first second : List Tree) :
    e.performs (first ++ second) = (e.performs first).performs second := List.foldl_append

/-- Answering a text performs a tree or nothing. -/
theorem answer_engine {σ : Type} [Sink σ] (e : Engine) (elapsed : Nat) (text : String) (out : σ) :
    (e.answer elapsed (e.prepare text) out).engine = e.performs (Text.trees text) := by
  unfold prepare Text.trees
  cases Tree.ofText text with
  | error fault => rfl
  | ok tree => exact Outcome.deliver_engine _ _ _

/-- A line of a batch performs the tree that it holds, if any. -/
theorem line_engine {σ : Type} [Sink σ] (p : Batch.Progress σ) (number elapsed : Nat)
    (text : String) :
    (p.line number elapsed text).engine = p.engine.performs (Batch.lineTrees text) := by
  unfold Batch.Progress.line Batch.lineTrees
  split
  · -- blank lines and comments are passed over
    rfl
  · exact answer_engine p.engine elapsed text p.sink

/-- A batch performs the trees of its lines. -/
theorem run_engine {σ : Type} [Sink σ] (clock : Nat → Nat) (lines : List Text.Bytes)
    (p : Batch.Progress σ) (number : Nat) :
    (Batch.run clock p number lines).progress.engine = p.engine.performs (Batch.trees lines) := by
  -- on the lines, for all stages of the batch
  induction lines generalizing p number with
  | nil => rfl
  | cons bytes lines ih =>
    unfold Batch.run Batch.trees
    cases Text.decode bytes with
    | none =>
      -- a line that is no text ends the run
      rfl
    | some line =>
      dsimp only
      rw [ih, line_engine, performs_append]

/-- **A call is the trees that it performs**, whichever entry point it goes through and whatever
its sink takes. -/
theorem call_engine (e : Engine) (c : Call) : e.call c = e.performs c.trees := by
  -- a batch begins with nothing logged and nothing counted, which its engine does not show
  cases c with
  | execute elapsed tree out => exact Outcome.deliver_engine (e.perform tree) elapsed out
  | executeText elapsed text out => exact answer_engine e elapsed text out
  | runBatch clock input out => exact run_engine clock (Text.linesOf input) ⟨e, out, [], ⟨0, 0⟩⟩ 1

/-- **Calls perform trees**, one after the other, whatever the sinks make of the output. -/
theorem calls_eq_performs (e : Engine) (cs : List Call) :
    e.calls cs = e.performs (cs.flatMap Call.trees) := by
  induction cs generalizing e with
  | nil => rfl
  | cons c cs ih =>
    rw [List.flatMap_cons, performs_append, ← call_engine]
    exact ih (e.call c)

/-- What each tree keeps, all of them keep. -/
theorem performs_invariant {P : Engine → Prop}
    (keeps : ∀ (e : Engine) (tree : Tree), P e → P (e.perform tree).engine) (trees : List Tree) :
    ∀ {e : Engine}, P e → P (e.performs trees) := by
  -- on the trees, for all engines, since each tree leaves another one behind
  induction trees with
  | nil => exact fun h => h
  | cons tree trees ih => exact fun h => ih (keeps _ tree h)

/-- **Invariants of reachable engines**: what holds of new engines and is kept by performing a tree
holds of every reachable engine. -/
theorem Reachable.invariant {P : Engine → Prop}
    (keeps : ∀ (e : Engine) (tree : Tree), P e → P (e.perform tree).engine)
    (start : ∀ s : Settings, P (ofSettings s)) {e : Engine} (h : e.Reachable) : P e := by
  obtain ⟨s, cs, rfl⟩ := h
  rw [calls_eq_performs]
  exact performs_invariant keeps _ (start s)

/-! ### Performing a tree -/

/-- A tree that is no statement leaves the catalog alone. -/
theorem perform_catalog_of_error {e : Engine} {tree : Tree} {err : Error}
    (h : Statement.ofTree tree = .error err) : (e.perform tree).engine.catalog = e.catalog := by
  unfold perform
  rw [h]
  rfl

/-- A statement leaves the catalog that its run leaves. -/
theorem perform_catalog_of_ok {e : Engine} {tree : Tree} {s : Statement}
    (h : Statement.ofTree tree = .ok s) :
    (e.perform tree).engine.catalog = (e.catalog.run e.memory e.renderer s).catalog := by
  unfold perform
  rw [h]

theorem perform_result_of_error {e : Engine} {tree : Tree} {err : Error}
    (h : Statement.ofTree tree = .error err) : (e.perform tree).result = .error err := by
  unfold perform
  rw [h]
  rfl

/-- It ends as its run ends. -/
theorem perform_result_of_ok {e : Engine} {tree : Tree} {s : Statement}
    (h : Statement.ofTree tree = .ok s) :
    (e.perform tree).result = (e.catalog.run e.memory e.renderer s).result := by
  unfold perform
  rw [h]

theorem perform_events_of_error {e : Engine} {tree : Tree} {err : Error}
    (h : Statement.ofTree tree = .error err) : (e.perform tree).events = [.lowering tree] := by
  unfold perform
  rw [h]
  rfl

/-- Its events are those of the run, behind two that say what is run. -/
theorem perform_events_of_ok {e : Engine} {tree : Tree} {s : Statement}
    (h : Statement.ofTree tree = .ok s) :
    (e.perform tree).events = .lowering tree :: .executing s.keyword tree ::
      (e.catalog.run e.memory e.renderer s).events := by
  unfold perform
  rw [h]

/-- What every statement keeps of a catalog holds of the catalogs of all reachable engines. -/
theorem Reachable.catalog_invariant {P : Catalog → Prop} (start : P .empty)
    (keeps : ∀ (c : Catalog) (m : Memory) (r : Renderer) (s : Statement),
      P c → P (c.run m r s).catalog)
    {e : Engine} (h : e.Reachable) : P e.catalog := by
  refine Reachable.invariant (P := fun e => P e.catalog) ?_ (fun _ => start) h
  intro e tree he
  cases lowered : Statement.ofTree tree with
  | error err => rwa [perform_catalog_of_error lowered]
  | ok s =>
    rw [perform_catalog_of_ok lowered]
    exact keeps e.catalog e.memory e.renderer s he

end Engine

end RelEngine
