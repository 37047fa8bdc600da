import RelEngine.Proofs.Reachability
import RelEngine.Proofs.Results

/-!
# Delivery

What a statement leads to is settled before anything is written. Delivery puts the printed lines and
then the cost report into a sink, and tells the caller how it went: the error of the statement, if
it has failed, else whether the sink has taken everything.

A sink *never fails* from its present state on if every text that is put into it from now on is
taken (`Sink.NeverFails`). Into such a sink go all printed lines and then the whole report, line by
line, and the caller learns how the statement ended (`Outcome.deliver_of_neverFails`).
-/

namespace RelEngine

variable {σ : Type} [Sink σ]

namespace Sink

/-- **A sink that never fails**: there are states, the present one among them, that no text leads
out of and in which every text is taken. -/
def NeverFails (out : σ) : Prop :=
  ∃ Open : σ → Prop, Open out ∧
    ∀ s text, Open s → (Sink.put s text).2 = true ∧ Open (Sink.put s text).1

/-- Such a sink takes every text, and is still one then. -/
theorem NeverFails.put {out : σ} (h : NeverFails out) (text : String) :
    (Sink.put out text).2 = true ∧ NeverFails (Sink.put out text).1 := by
  obtain ⟨Open, here, stays⟩ := h
  obtain ⟨taken, there⟩ := stays out text here
  exact ⟨taken, Open, there, stays⟩

theorem NeverFails.putLines_cons {out : σ} (h : NeverFails out) (line : String)
    (rest : List String) :
    Sink.putLines out (line :: rest) = Sink.putLines (Sink.put out (line.push '\n')).1 rest := by
  have taken := (h.put (line.push '\n')).1
  rw [Sink.putLines]
  split
  · next next put => rw [put]
  · next next put => rw [put] at taken; cases taken

/-- It takes all lines. -/
theorem NeverFails.putLines {out : σ} (h : NeverFails out) (lines : List String) :
    (Sink.putLines out lines).2 = true ∧ NeverFails (Sink.putLines out lines).1 := by
  -- on the lines, for all such sinks
  induction lines generalizing out with
  | nil => exact ⟨rfl, h⟩
  | cons line rest ih =>
    rw [h.putLines_cons]
    exact ih (h.put _).2

/-- When the first lines are taken, it goes on with the others. -/
theorem putLines_append {out : σ} {first : List String} (taken : (Sink.putLines out first).2 = true)
    (second : List String) :
    Sink.putLines out (first ++ second) = Sink.putLines (Sink.putLines out first).1 second := by
  induction first generalizing out with
  | nil => rfl
  | cons line rest ih =>
    rw [Sink.putLines] at taken
    rw [List.cons_append, Sink.putLines, Sink.putLines]
    split at taken
    · exact ih taken
    · cases taken

theorem print_error (out : σ) (e : Error) : Sink.print out (.error e) = (out, .error e) := rfl

/-- Printing a result fails exactly if a line is not taken. -/
theorem print_ok (out : σ) (lines : List String) :
    Sink.print out (.ok lines) = ((Sink.putLines out lines).1,
      if (Sink.putLines out lines).2 then .ok () else .error .outputClosed) := by
  unfold Sink.print
  dsimp only
  split
  · next next put => rw [put]; rfl
  · next next put => rw [put]; rfl

end Sink

/-- The sink without limit never fails, as its room never becomes one. -/
theorem Transcript.neverFails_unlimited : Sink.NeverFails Transcript.unlimited := by
  refine ⟨fun t => t.room = none, rfl, ?_⟩
  intro t text unlimited
  change (t.put text).2 = true ∧ (t.put text).1.room = none
  unfold Transcript.put
  rw [unlimited]
  exact ⟨rfl, rfl⟩

open Sink

namespace Outcome

/-- The lines that a statement prints; none if it has failed. -/
def printed (o : Outcome) : List String :=
  match o.result with
  | .ok lines => lines
  | .error _ => []

/-- The report on a statement. -/
def report (o : Outcome) (elapsed : Nat) : List String := Cost.lines ⟨elapsed, o.cost⟩

/-- The error of a statement is what its delivery ends with, whatever the sink does with the
report. -/
theorem deliver_of_error {o : Outcome} {e : Error} (h : o.result = .error e) (elapsed : Nat)
    (out : σ) : (o.deliver elapsed out).result = .error e := by
  unfold deliver
  rw [h, print_error]
  dsimp only
  split
  · rfl
  · next first => cases first
  · next first => exact first.symm

/-- A statement that has succeeded is told so if its lines and its report were taken. -/
theorem deliver_result_of_ok {o : Outcome} {lines : List String} (h : o.result = .ok lines)
    (elapsed : Nat) (out : σ) :
    (o.deliver elapsed out).result =
      if (Sink.putLines out lines).2 &&
          (Sink.putLines (Sink.putLines out lines).1 (o.report elapsed)).2 then .ok ()
      else .error .outputClosed := by
  unfold deliver report
  rw [h, print_ok]
  dsimp only
  rw [print_ok]
  -- the sink may stop at the lines, at the report, at both or at neither
  cases (Sink.putLines out lines).2 <;>
    cases (Sink.putLines (Sink.putLines out lines).1 (Cost.lines ⟨elapsed, o.cost⟩)).2 <;> rfl

/-- And a delivery of a result fails only over its sink. -/
theorem deliver_of_ok {o : Outcome} {lines : List String} (h : o.result = .ok lines) (elapsed : Nat)
    (out : σ) :
    (o.deliver elapsed out).result = .ok () ∨
      (o.deliver elapsed out).result = .error .outputClosed := by
  rw [deliver_result_of_ok h]
  split
  · exact .inl rfl
  · exact .inr rfl

/-- Whatever becomes of the lines, the report is put behind what the sink has taken of them. -/
theorem deliver_sink (o : Outcome) (elapsed : Nat) (out : σ) :
    (o.deliver elapsed out).sink
      = (Sink.putLines (Sink.print out o.result).1 (o.report elapsed)).1 := by
  have reported : ∀ next : σ, (Sink.print next (.ok (Cost.lines ⟨elapsed, o.cost⟩))).1
      = (Sink.putLines next (o.report elapsed)).1 := fun next => by
    rw [print_ok, report]
  unfold deliver
  dsimp only
  rw [← reported]
  split <;> rfl

/-- **Success** means that there were lines, and that they and the whole report were taken. -/
theorem exists_of_deliver_ok {o : Outcome} {elapsed : Nat} {out : σ}
    (h : (o.deliver elapsed out).result = .ok ()) :
    ∃ lines, o.result = .ok lines ∧
      (o.deliver elapsed out).sink = (Sink.putLines out (lines ++ o.report elapsed)).1 := by
  cases ended : o.result with
  | error e =>
    rw [deliver_of_error ended] at h
    cases h
  | ok lines =>
    -- both were taken, so the report has followed the lines
    rw [deliver_result_of_ok ended] at h
    split at h
    · next taken =>
      refine ⟨lines, rfl, ?_⟩
      rw [deliver_sink, ended, print_ok, putLines_append (Bool.and_eq_true_iff.1 taken).1]
    · cases h

/-- **Delivery into a sink that never fails**: all printed lines, then the report. -/
theorem deliver_of_neverFails (o : Outcome) (elapsed : Nat) {out : σ} (h : Sink.NeverFails out) :
    (o.deliver elapsed out).result = o.result.map (fun _ => ()) ∧
      (o.deliver elapsed out).sink = (Sink.putLines out (o.printed ++ o.report elapsed)).1 := by
  have reported : ∀ {next : σ}, NeverFails next →
      Sink.print next (.ok (Cost.lines ⟨elapsed, o.cost⟩))
        = ((Sink.putLines next (o.report elapsed)).1, .ok ()) := by
    intro next never
    rw [print_ok, (never.putLines _).1]
    rfl
  unfold deliver printed
  cases o.result with
  | error e =>
    -- nothing is printed, so the report comes first
    rw [print_error]
    dsimp only
    rw [reported h]
    exact ⟨rfl, rfl⟩
  | ok lines =>
    -- the lines are taken, and the sink they leave never fails either
    obtain ⟨taken, never⟩ := h.putLines lines
    rw [print_ok, taken]
    dsimp only
    rw [reported never, putLines_append taken]
    exact ⟨rfl, rfl⟩

end Outcome

end RelEngine
