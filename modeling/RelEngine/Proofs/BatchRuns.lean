import RelEngine.Proofs.CutOutput

/-!
# Batches as sessions

A batch is run line by line, and what a line does depends on all lines before it. This module says
what the run comes to without following it: the statements of the batch are picked from the input
beforehand (`Batch.statements`), and then run as a session, in which nothing is known of lines.

The statements of a batch are found without any engine. They are the trimmed lines that are neither
empty nor begin with two hyphens, each with the number of its line, up to the first line that is not
a text. So neither a failing statement nor a sink that takes nothing has a part in which statements
are run.

* `Batch.run_progress` — the loop over the lines is a loop over the statements;
* `Batch.foldl_next` — the loop over the statements is a session, with its replies counted;
* `Engine.runBatch_session` — what a batch does to the engine and the sink, what it logs, what it
  counts and how it ends.
-/

namespace RelEngine

/-! ### Lines -/

/-- **A last line may end with the input.** Together with `linesOf_append_newline` this says what
the lines of every input are. -/
theorem Text.linesOf_last {line : Bytes} (h : newline ∉ line) :
    linesOf line = if line = [] then [] else [line] := by
  induction line with
  | nil => rfl
  | cons b line ih =>
    simp only [List.mem_cons, not_or] at h
    rw [linesOf, if_neg (Ne.symm h.1), ih h.2]
    by_cases last : line = []
    · subst last
      rfl
    · rw [if_neg last, if_neg (List.cons_ne_nil b line)]

/-! ### Replies -/

/-- A reply that is an error. -/
def Reply.failed {σ : Type} (reply : Reply σ) : Bool :=
  match reply.result with
  | .ok _ => false
  | .error _ => true

/-- There is a reply to each input of a session. -/
theorem Engine.length_session {σ : Type} [Sink σ] (e : Engine) (out : σ)
    (inputs : List (Nat × String)) : (e.session out inputs).length = inputs.length := by
  induction inputs generalizing e out with
  | nil => rfl
  | cons input inputs ih =>
    rw [session, List.length_cons, List.length_cons, ih]

/-! ### The statements of a batch -/

namespace Batch

/-- **A text that holds a statement**: it is neither empty nor a comment. -/
def HoldsStatement (text : String) : Prop := text ≠ "" ∧ ¬ ['-', '-'] <+: text.toList

instance : DecidablePred HoldsStatement := fun _ => instDecidableAnd

/-- The texts of some lines, trimmed, up to the first line that is not a text. -/
def texts (lines : List Text.Bytes) : List String :=
  ((lines.map Text.decode).takeWhile Option.isSome).filterMap (Option.map Text.trimmed)

/-- **The statements of a batch**, each with the number of its line, when the first line has the
given number. -/
def statements (number : Nat) (lines : List Text.Bytes) : List (String × Nat) :=
  ((texts lines).zipIdx number).filter fun statement => HoldsStatement statement.1

/-- A statement of a batch as an input of a session. How long each line takes is what `clock`
says. -/
def timed (clock : Nat → Nat) (statement : String × Nat) : Nat × String :=
  (clock statement.2, statement.1)

/-- What is logged about a statement of a batch, given the reply to it. -/
def logged {σ : Type} (statement : String × Nat) (reply : Reply σ) : List Event :=
  .batchLine statement.2 statement.1 :: reply.events ++
    match reply.result with
    | .ok _ => []
    | .error e => [.lineFailed statement.2 e]

/-- A line that is no text ends the texts. -/
theorem texts_cons_of_none {bytes : Text.Bytes} (h : Text.decode bytes = none)
    (lines : List Text.Bytes) : texts (bytes :: lines) = [] := by
  simp [texts, h]

theorem texts_cons_of_some {bytes : Text.Bytes} {line : String} (h : Text.decode bytes = some line)
    (lines : List Text.Bytes) : texts (bytes :: lines) = Text.trimmed line :: texts lines := by
  simp [texts, h]

theorem statements_of_texts_nil {number : Nat} {lines : List Text.Bytes} (h : texts lines = []) :
    statements number lines = [] := by
  rw [statements, h, List.zipIdx_nil, List.filter_nil]

/-- The next text is a statement under the number of its line, or it is passed over; the numbers go
on either way. -/
theorem statements_of_texts_cons {number : Nat} {lines rest : List Text.Bytes} {text : String}
    (h : texts lines = text :: texts rest) :
    statements number lines = if HoldsStatement text
      then (text, number) :: statements (number + 1) rest else statements (number + 1) rest := by
  rw [statements, h, List.zipIdx_cons, List.filter_cons]
  by_cases holds : HoldsStatement text <;> simp [holds, statements]

/-- **The lines that are passed over** are those that hold no statement. -/
theorem isSkipped_iff {text : String} : isSkipped text = true ↔ ¬ HoldsStatement text := by
  have empty : text = "" ↔ text.toList = [] := by
    rw [← String.toList_inj]
    rfl
  rw [HoldsStatement, not_and_or, not_not, not_not, empty, isSkipped]
  match text.toList with
  | [] => simp
  | [_] => simp [List.cons_prefix_cons]
  | a :: b :: rest =>
    -- nothing but the first two characters matters
    by_cases first : a = '-' <;> by_cases second : b = '-' <;>
      simp [List.cons_prefix_cons, first, second, eq_comm]

/-! ### The loop -/

variable {σ : Type} [Sink σ]

/-- The batch after one more statement. -/
def Progress.next (clock : Nat → Nat) (p : Progress σ) (statement : String × Nat) : Progress σ :=
  p.record statement.2 (clock statement.2) statement.1 (p.engine.prepare statement.1)

/-- A line that holds no statement changes nothing, and every other line is a statement. -/
theorem Progress.line_eq (clock : Nat → Nat) (p : Progress σ) (number : Nat) (text : String) :
    p.line number (clock number) text
      = if HoldsStatement text then p.next clock (text, number) else p := by
  unfold Progress.line
  by_cases holds : HoldsStatement text
  · have kept : ¬ isSkipped text = true := fun skipped => isSkipped_iff.1 skipped holds
    rw [if_neg kept, if_pos holds]
    rfl
  · rw [if_pos (isSkipped_iff.2 holds), if_neg holds]

/-- **The loop over the lines is a loop over the statements.** -/
theorem run_progress (clock : Nat → Nat) (lines : List Text.Bytes) (p : Progress σ)
    (number : Nat) :
    (run clock p number lines).progress = (statements number lines).foldl (Progress.next clock) p := by
  induction lines generalizing p number with
  | nil => rfl
  | cons bytes lines ih =>
    unfold run
    cases decoded : Text.decode bytes with
    | none =>
      -- a line that is no text ends the run, and the statements
      rw [statements_of_texts_nil (texts_cons_of_none decoded lines)]
      rfl
    | some line =>
      -- a line that is a text is handled, and then the lines behind it
      dsimp only
      rw [ih, p.line_eq, statements_of_texts_cons (texts_cons_of_some decoded lines)]
      by_cases holds : HoldsStatement (Text.trimmed line)
      · rw [if_pos holds, if_pos holds, List.foldl_cons]
      · rw [if_neg holds, if_neg holds]

/-- The loop ends with the input, or at the first line that is not a text. -/
theorem run_result (clock : Nat → Nat) (lines : List Text.Bytes) (p : Progress σ) (number : Nat) :
    (run clock p number lines).result
      = if ∀ line ∈ lines, (Text.decode line).isSome then .ok () else .error .inputNotText := by
  induction lines generalizing p number with
  | nil => rfl
  | cons bytes lines ih =>
    unfold run
    cases decoded : Text.decode bytes with
    | none => simp [decoded]
    | some line => simp [decoded, ih]

/-! ### The session -/

/-- One statement of a batch: the engine and the sink are those of the reply to its text. -/
theorem Progress.next_eq (clock : Nat → Nat) (p : Progress σ) (statement : String × Nat)
    {reply : Reply σ}
    (answered : p.engine.executeText (clock statement.2) statement.1 p.sink = reply) :
    p.next clock statement =
      { engine := reply.engine
        sink := reply.sink
        events := p.events ++ logged statement reply
        summary := ⟨p.summary.executed + 1,
          p.summary.failed + [reply].countP Reply.failed⟩ } := by
  have answer : p.engine.answer (clock statement.2) (p.engine.prepare statement.1) p.sink = reply :=
    answered
  unfold next record logged
  rw [answer]
  -- only the result decides whether an error is counted and logged
  obtain ⟨engine, sink, events, result⟩ := reply
  cases result with
  | ok _ => simp [Reply.failed]
  | error _ => simp [Reply.failed]

/-- **The loop over the statements is a session.** -/
theorem foldl_next (clock : Nat → Nat) (batch : List (String × Nat)) (p : Progress σ) :
    let replies := p.engine.session p.sink (batch.map (timed clock))
    batch.foldl (Progress.next clock) p =
      { engine := (replies.getLast?.map Reply.engine).getD p.engine
        sink := (replies.getLast?.map Reply.sink).getD p.sink
        events := p.events ++ (List.zipWith logged batch replies).flatten
        summary := ⟨p.summary.executed + batch.length,
          p.summary.failed + replies.countP Reply.failed⟩ } := by
  induction batch generalizing p with
  | nil => simp [Engine.session]
  | cons statement batch ih =>
    intro replies
    let reply := p.engine.executeText (clock statement.2) statement.1 p.sink
    let later := reply.engine.session reply.sink (batch.map (timed clock))
    -- the later statements run as a session of the engine that the first reply leaves
    have split : replies = reply :: later := rfl
    have counted : replies.countP Reply.failed
        = [reply].countP Reply.failed + later.countP Reply.failed := by
      rw [split, ← List.singleton_append, List.countP_append]
    rw [List.foldl_cons, ih, p.next_eq clock statement (rfl : _ = reply), counted, split,
      getD_getLast?_cons, getD_getLast?_cons, List.zipWith_cons_cons, List.flatten_cons,
      List.append_assoc, List.length_cons, Nat.add_assoc, Nat.add_assoc, Nat.add_comm 1]

end Batch

/-! ### Whole batches -/

/-- **A batch is the sequence of its statements.** Let `replies` be the replies of a session that
runs the statements of the batch in order. Then the batch leaves the engine and the sink that the
last of them leaves, it logs what they log, and it counts them and those among them that are errors.
It ends well if all lines are texts, and otherwise with the error of the first that is none, having
run the statements before. -/
theorem Engine.runBatch_session {σ : Type} [Sink σ] (e : Engine) (clock : Nat → Nat)
    (input : Text.Bytes) (out : σ) :
    let lines := Text.linesOf input
    let batch := Batch.statements 1 lines
    let replies := e.session out (batch.map (Batch.timed clock))
    let report := e.runBatch clock input out
    report.progress.engine = (replies.getLast?.map Reply.engine).getD e ∧
    report.progress.sink = (replies.getLast?.map Reply.sink).getD out ∧
    report.progress.events = (List.zipWith Batch.logged batch replies).flatten ∧
    report.progress.summary.executed = batch.length ∧
    report.progress.summary.failed = replies.countP Reply.failed ∧
    report.progress.summary.failed ≤ report.progress.summary.executed ∧
    report.result = if ∀ line ∈ lines, (Text.decode line).isSome
      then .ok () else .error .inputNotText := by
  intro lines batch replies report
  have progress : report.progress = batch.foldl (Batch.Progress.next clock) ⟨e, out, [], ⟨0, 0⟩⟩ :=
    Batch.run_progress clock lines _ 1
  rw [progress, Batch.foldl_next]
  have answered : replies.length = batch.length := by
    rw [← List.length_map (Batch.timed clock)]
    exact e.length_session out _
  refine ⟨rfl, rfl, ?_, ?_, ?_, ?_, ?_⟩
  · -- nothing was logged before the first line
    rfl
  · exact Nat.zero_add _
  · exact Nat.zero_add _
  · -- there are no more errors than replies, and one reply to each statement
    change 0 + replies.countP Reply.failed ≤ 0 + batch.length
    rw [Nat.zero_add, Nat.zero_add, ← answered]
    exact List.countP_le_length
  · exact Batch.run_result clock lines _ 1

-- the lines are a comment, two statements around an empty line, and then one that is not a text
example : Batch.statements 1 (Text.linesOf (Text.utf8 "-- a\n (A) \r\n\n(B" ++ [10, 255, 10] ++
    Text.utf8 "(C")) = [("(A)", 2), ("(B", 4)] := by decide +kernel

end RelEngine
