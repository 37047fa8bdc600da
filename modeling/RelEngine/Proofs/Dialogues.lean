import RelEngine.CommandLine
import RelEngine.Proofs.BatchRuns

/-!
# Dialogues and scripts

The program takes the same input in two ways, as a script or in a dialogue, by two loops of their
own. They differ in what they pass over and in where they stop: a script passes over comments, and
a dialogue stops at a line that asks for it. On an input whose lines are neither the one nor the
other (`Console.Neutral`) they come to the same, up to the prompts.

What both loops come to is said by **turns**. There is a turn for each line that is read; it is the
engine that the line meets, the trimmed text of the line, and the bytes that the text puts out.
Turns know nothing of prompts, of what is counted and of where complaints go. Each loop is followed
line by line, with its own state before the line, and the induction over the lines carries two
things: the state has the engine of the turn, and its sink has been extended by the output of the
turns before.

* `Console.request_of_neutral` — a neutral line is run in a dialogue iff a script runs it;
* `Batch.run_turns`, `Console.run_turns` — what the two loops do with the lines;
* `CommandLine.dialogue_follows_script` — two runs of the program.
-/

namespace RelEngine

/-! ### Neutral lines -/

/-- **A neutral text**: it is no comment and does not ask a dialogue to stop. -/
def Console.Neutral (text : String) : Prop :=
  ¬ ['-', '-'] <+: text.toList ∧ Text.sameLetters text "exit" = false ∧
    Text.sameLetters text ".exit" = false

instance : DecidablePred Console.Neutral := fun _ => instDecidableAnd

/-- A neutral line is run in a dialogue iff a script runs it. -/
theorem Console.request_of_neutral {text : String} (h : Neutral text) :
    request text = if Batch.HoldsStatement text then .run text else .nothing := by
  obtain ⟨comment, word, command⟩ := h
  -- an empty line holds no statement, and any other neutral one does
  by_cases empty : text = ""
  · have unheld : ¬ Batch.HoldsStatement text := fun held => held.1 empty
    rw [if_neg unheld, empty]
    rfl
  · have nonempty : ¬ text.isEmpty = true := by
      rwa [String.isEmpty_iff]
    rw [if_pos ⟨empty, comment⟩, request, if_neg nonempty, word, command]
    rfl

/-! ### Turns -/

/-- **A turn**: the engine that a text meets, the text, and the bytes that it puts out. -/
structure Turn where
  engine : Engine
  text : String
  output : Text.Bytes

namespace Turn

/-- The output of a turn behind a prompt. -/
def prompted (turn : Turn) : Text.Bytes := Text.utf8 Console.prompt ++ turn.output

/-- The statements among some turns, each with the engine that it meets. -/
def statements (turns : List Turn) : List (Engine × String) :=
  (turns.filter fun turn => Batch.HoldsStatement turn.text).map fun turn => (turn.engine, turn.text)

variable {text : String}

/-- A turn with a statement in it is one of the statements, and any other is passed over. -/
theorem statements_of_holds (h : Batch.HoldsStatement text) (e : Engine) (output : Text.Bytes)
    (rest : List Turn) : statements (⟨e, text, output⟩ :: rest) = (e, text) :: statements rest := by
  simp [statements, h]

/-- A turn without a statement is none of the statements. -/
theorem statements_of_not_holds (h : ¬ Batch.HoldsStatement text) (e : Engine) (output : Text.Bytes)
    (rest : List Turn) : statements (⟨e, text, output⟩ :: rest) = statements rest := by
  simp [statements, h]

end Turn

namespace Engine

/-- The bytes that a text puts out. -/
def emitted (e : Engine) (elapsed : Nat) (text : String) : Text.Bytes :=
  (e.executeText elapsed text Transcript.unlimited).sink.written.toList

/-- The engine that a text leaves. -/
def left (e : Engine) (text : String) : Engine := e.performs (Text.trees text)

/-- **The turns of some texts**, the first of which is on the line of the given number. A text that
holds no statement leaves the engine alone and puts nothing out. -/
def turns (e : Engine) (clock : Nat → Nat) (number : Nat) : List String → List Turn
  | [] => []
  | text :: rest =>
    if Batch.HoldsStatement text then
      ⟨e, text, e.emitted (clock number) text⟩ :: (e.left text).turns clock (number + 1) rest
    else ⟨e, text, []⟩ :: e.turns clock (number + 1) rest

/-- A transcript is extended by what a text puts out, whatever it has taken before. -/
theorem executeText_transcript (e : Engine) (elapsed : Nat) (text : String) (t : Transcript) :
    (e.executeText elapsed text t).sink = t.extend (e.emitted elapsed text) := by
  unfold emitted executeText prepare
  cases Tree.ofText text with
  | error fault => exact t.extend_nil.symm
  | ok tree =>
    change ((e.perform tree).deliver elapsed t).sink
      = t.extend ((e.perform tree).deliver elapsed Transcript.unlimited).sink.written.toList
    rw [Outcome.deliver_transcript, Outcome.deliver_transcript,
      Transcript.toList_written_unlimited]

/-- Whatever the sink, a text leaves the engine that its tree leaves. -/
theorem executeText_left {σ : Type} [Sink σ] (e : Engine) (elapsed : Nat) (text : String)
    (out : σ) : (e.executeText elapsed text out).engine = e.left text :=
  answer_engine e elapsed text out

end Engine

namespace Engine

variable {clock : Nat → Nat} {number : Nat} {text : String}

/-- A turn shows what its statement emits, and the next one begins with the engine that this one
leaves. -/
theorem turns_of_holds (h : Batch.HoldsStatement text) (e : Engine) (rest : List String) :
    e.turns clock number (text :: rest)
      = ⟨e, text, e.emitted (clock number) text⟩ :: (e.left text).turns clock (number + 1) rest :=
  if_pos h

/-- A line without a statement leaves the engine alone and puts nothing out. -/
theorem turns_of_not_holds (h : ¬ Batch.HoldsStatement text) (e : Engine) (rest : List String) :
    e.turns clock number (text :: rest) = ⟨e, text, []⟩ :: e.turns clock (number + 1) rest :=
  if_neg h

/-- There is a turn for each text. -/
theorem map_text_turns (texts : List String) (e : Engine) (number : Nat) :
    (e.turns clock number texts).map Turn.text = texts := by
  induction texts generalizing e number with
  | nil => rfl
  | cons text rest ih =>
    by_cases holds : Batch.HoldsStatement text
    · rw [Engine.turns_of_holds holds, List.map_cons, ih]
    · rw [Engine.turns_of_not_holds holds, List.map_cons, ih]

end Engine

/-! ### Scripts -/

namespace Batch

variable {σ : Type} [Sink σ]

/-- **What a script runs**: the loop over the lines, noting each text that is run and the engine
that it is run on. -/
def ran (clock : Nat → Nat) (p : Progress σ) (number : Nat) :
    List Text.Bytes → List (Engine × String)
  | [] => []
  | bytes :: rest =>
    match Text.decode bytes with
    | none => []
    | some line =>
      let text := Text.trimmed line
      let later := ran clock (p.line number (clock number) text) (number + 1) rest
      if isSkipped text then later else (p.engine, text) :: later

/-- One statement of a script. -/
theorem Progress.line_of_holds {text : String} (h : HoldsStatement text) (p : Progress Transcript)
    (clock : Nat → Nat) (number : Nat) :
    (p.line number (clock number) text).engine = p.engine.left text ∧
      (p.line number (clock number) text).sink
        = p.sink.extend (p.engine.emitted (clock number) text) := by
  rw [p.line_eq, if_pos h, p.next_eq clock (text, number) rfl]
  exact ⟨p.engine.executeText_left _ _ _, p.engine.executeText_transcript _ _ _⟩

/-- **A script in turns**: it runs the statements among them, and puts out what they put out. -/
theorem run_turns (clock : Nat → Nat) (lines : List Text.Bytes) (p : Progress Transcript)
    (number : Nat) :
    let turns := p.engine.turns clock number (texts lines)
    ran clock p number lines = Turn.statements turns ∧
      (run clock p number lines).progress.sink = p.sink.extend (turns.flatMap Turn.output) := by
  induction lines generalizing p number with
  | nil => exact ⟨rfl, p.sink.extend_nil.symm⟩
  | cons bytes lines ih =>
    intro turns
    cases decoded : Text.decode bytes with
    | none =>
      -- no line is read from here on
      have none : turns = [] := by
        change p.engine.turns clock number (texts (bytes :: lines)) = []
        rw [texts_cons_of_none decoded]
        rfl
      rw [none, ran, run, decoded]
      exact ⟨rfl, p.sink.extend_nil.symm⟩
    | some line =>
      have read : turns = p.engine.turns clock number (Text.trimmed line :: texts lines) :=
        congrArg _ (texts_cons_of_some decoded lines)
      obtain ⟨later, sink⟩ := ih (p.line number (clock number) (Text.trimmed line)) (number + 1)
      rw [ran, run, decoded]
      dsimp only
      rw [later, sink]
      -- a line with a statement makes a turn with output, and any other changes nothing
      by_cases holds : HoldsStatement (Text.trimmed line)
      · have kept : ¬ isSkipped (Text.trimmed line) = true := fun skipped =>
          isSkipped_iff.1 skipped holds
        obtain ⟨engine, sink⟩ := p.line_of_holds holds clock number
        rw [if_neg kept, read, Engine.turns_of_holds holds, Turn.statements_of_holds holds, engine,
          sink, List.flatMap_cons, Transcript.extend_append]
        exact ⟨rfl, rfl⟩
      · rw [if_pos (isSkipped_iff.2 holds), p.line_eq, if_neg holds, read,
          Engine.turns_of_not_holds holds, Turn.statements_of_not_holds holds]
        exact ⟨rfl, rfl⟩

end Batch

/-! ### Dialogues -/

namespace Console

variable {σ : Type} [Sink σ]

/-- **What a dialogue runs**: the loop over the lines, noting each text that is run and the engine
that it is run on. -/
def ran (clock : Nat → Nat) (d : Dialogue σ) (number : Nat) :
    List Text.Bytes → List (Engine × String)
  | [] => []
  | bytes :: rest =>
    let d := d.prompted
    match Text.decode bytes with
    | none => []
    | some line =>
      match request (Text.trimmed line) with
      | .nothing => ran clock d (number + 1) rest
      | .stop => []
      | .run text => (d.engine, text)
          :: ran clock (d.record (clock number) (d.engine.prepare text)) (number + 1) rest

/-- The prompt is written as it is. -/
theorem prompted_sink (d : Dialogue Transcript) :
    d.prompted.sink = d.sink.extend (Text.utf8 prompt) := by
  rw [Dialogue.prompted, Transcript.put_eq]

/-- The engine after a recorded line is the one that running the line leaves. -/
theorem record_engine (d : Dialogue σ) (elapsed : Nat) (text : String) :
    (d.record elapsed (d.engine.prepare text)).engine = d.engine.left text :=
  d.engine.executeText_left elapsed text d.sink

/-- A statement writes what it emits. -/
theorem record_sink (d : Dialogue Transcript) (elapsed : Nat) (text : String) :
    (d.record elapsed (d.engine.prepare text)).sink
      = d.sink.extend (d.engine.emitted elapsed text) :=
  d.engine.executeText_transcript elapsed text d.sink

/-- **A dialogue in turns**: on neutral lines it runs the statements among them, and puts out what
they put out, each behind a prompt, and a last prompt behind which no line was read. -/
theorem run_turns (clock : Nat → Nat) (lines : List Text.Bytes) (d : Dialogue Transcript)
    (number : Nat) (neutral : ∀ text ∈ Batch.texts lines, Neutral text) :
    let turns := d.engine.turns clock number (Batch.texts lines)
    ran clock d number lines = Turn.statements turns ∧
      (run clock d number lines).dialogue.sink
        = d.sink.extend (turns.flatMap Turn.prompted ++ Text.utf8 prompt) := by
  induction lines generalizing d number with
  | nil => exact ⟨rfl, prompted_sink d⟩
  | cons bytes lines ih =>
    intro turns
    cases decoded : Text.decode bytes with
    | none =>
      -- the prompt has been put out before the line was found not to be a text
      have none : turns = [] := by
        change d.engine.turns clock number (Batch.texts (bytes :: lines)) = []
        rw [Batch.texts_cons_of_none decoded]
        rfl
      rw [none, ran, run, decoded]
      exact ⟨rfl, prompted_sink d⟩
    | some line =>
      have read : turns
          = d.engine.turns clock number (Text.trimmed line :: Batch.texts lines) :=
        congrArg _ (Batch.texts_cons_of_some decoded lines)
      rw [Batch.texts_cons_of_some decoded, List.forall_mem_cons] at neutral
      rw [ran, run, decoded]
      dsimp only
      rw [request_of_neutral neutral.1]
      -- either way the prompt of this turn has been put out before
      by_cases holds : Batch.HoldsStatement (Text.trimmed line)
      · let next := d.prompted.record (clock number) (d.engine.prepare (Text.trimmed line))
        obtain ⟨later, sink⟩ := ih next (number + 1) neutral.2
        have engine : next.engine = d.engine.left (Text.trimmed line) :=
          record_engine d.prompted _ _
        have taken : next.sink = (d.sink.extend (Text.utf8 prompt)).extend
            (d.engine.emitted (clock number) (Text.trimmed line)) := by
          rw [← prompted_sink]
          exact record_sink d.prompted _ _
        rw [engine] at later sink
        rw [if_pos holds, read, Engine.turns_of_holds holds, Turn.statements_of_holds holds]
        constructor
        · exact congrArg _ later
        · refine sink.trans ?_
          simp only [taken, List.flatMap_cons, Turn.prompted, List.append_assoc,
            Transcript.extend_append]
      · obtain ⟨later, sink⟩ := ih d.prompted (number + 1) neutral.2
        rw [if_neg holds, read, Engine.turns_of_not_holds holds, Turn.statements_of_not_holds holds]
        constructor
        · exact later
        · refine sink.trans ?_
          have same : d.prompted.engine = d.engine := rfl
          simp only [same, prompted_sink, List.flatMap_cons, Turn.prompted, List.append_nil,
            List.append_assoc, Transcript.extend_append]

/-- On neutral lines a dialogue does to the engine what the lines' trees do, and ends at the first
line that is not a text, if there is one. -/
theorem run_of_neutral (clock : Nat → Nat) (lines : List Text.Bytes) (d : Dialogue σ) (number : Nat)
    (neutral : ∀ text ∈ Batch.texts lines, Neutral text) :
    (run clock d number lines).dialogue.engine = d.engine.performs (Batch.trees lines) ∧
      (run clock d number lines).result
        = if ∀ line ∈ lines, (Text.decode line).isSome then .ok () else .error .inputNotText := by
  induction lines generalizing d number with
  | nil => exact ⟨rfl, rfl⟩
  | cons bytes lines ih =>
    rw [run, Batch.trees]
    cases decoded : Text.decode bytes with
    | none => simp [decoded, Dialogue.prompted, Engine.performs]
    | some line =>
      rw [Batch.texts_cons_of_some decoded, List.forall_mem_cons] at neutral
      -- this line is a text, so that the end is up to the others
      have readable : (∀ line ∈ bytes :: lines, (Text.decode line).isSome)
          ↔ ∀ line ∈ lines, (Text.decode line).isSome := by
        simp [decoded]
      dsimp only
      rw [request_of_neutral neutral.1, Engine.performs_append, if_congr readable rfl rfl,
        Batch.lineTrees]
      -- what holds a statement is performed, and what does not is passed over by both
      by_cases holds : Batch.HoldsStatement (Text.trimmed line)
      · have kept : ¬ Batch.isSkipped (Text.trimmed line) = true := fun skipped =>
          Batch.isSkipped_iff.1 skipped holds
        rw [if_pos holds, if_neg kept]
        have left := record_engine d.prompted (clock number) (Text.trimmed line)
        obtain ⟨engine, result⟩ := ih (d.prompted.record (clock number)
          (d.prompted.engine.prepare (Text.trimmed line))) (number + 1) neutral.2
        rw [left] at engine
        exact ⟨engine, result⟩
      · rw [if_neg holds, if_pos (Batch.isSkipped_iff.2 holds)]
        exact ih d.prompted (number + 1) neutral.2

end Console

/-! ### Two runs of the program -/

namespace CommandLine

/-- What was written stays, however the program ends. -/
theorem finish_output (output : Transcript) (diagnostics : String) (failure : Option Failure) :
    (finish output diagnostics failure).output = output := by
  cases failure <;> rfl

/-- The exit code tells whether the input could be read. -/
theorem finish_code (output : Transcript) (diagnostics : String) {readable : Prop}
    [Decidable readable] {result : Except Error Unit}
    (h : result = if readable then .ok () else .error .inputNotText) :
    (finish output diagnostics (readingFailure result)).code = if readable then 0 else 1 := by
  rw [h]
  split <;> rfl

/-- **A dialogue follows the script.** The same input is run as a script and in a dialogue, and no
line that is read is a comment or asks to stop. There is a turn for each line that is read. Both
runs run the statements among the turns, each on the same engine, and leave the same engine behind.
The script puts out the output of the turns; the dialogue puts out the same with a prompt before
each turn, and a last prompt at the end of the input or before the line that is not a text. Both
exit with code one if there is such a line, and else with zero. -/
theorem dialogue_follows_script (settings : Settings) (clock : Nat → Nat) (input : Text.Bytes)
    (neutral : ∀ text ∈ Batch.texts (Text.linesOf input), Console.Neutral text) :
    let lines := Text.linesOf input
    let e := Engine.ofSettings settings
    let turns := e.turns clock 1 (Batch.texts lines)
    let script := run settings clock (.script input)
    let dialogue := run settings clock (.dialogue input)
    turns.map Turn.text = Batch.texts lines ∧
    Batch.ran clock ⟨e, Transcript.unlimited, [], ⟨0, 0⟩⟩ 1 lines = Turn.statements turns ∧
    Console.ran clock ⟨e, Transcript.unlimited, ""⟩ 1 lines = Turn.statements turns ∧
    (e.converse clock input Transcript.unlimited).dialogue.engine
      = (e.runBatch clock input Transcript.unlimited).progress.engine ∧
    script.output.written.toList = turns.flatMap Turn.output ∧
    dialogue.output.written.toList
      = turns.flatMap (fun turn => Text.utf8 Console.prompt ++ turn.output)
        ++ Text.utf8 Console.prompt ∧
    script.code = (if ∀ line ∈ lines, (Text.decode line).isSome then 0 else 1) ∧
    dialogue.code = script.code := by
  intro lines e turns script dialogue
  -- both loops follow the turns, and end for the same reason
  obtain ⟨scriptRan, scriptSink⟩ :=
    Batch.run_turns clock lines ⟨e, Transcript.unlimited, [], ⟨0, 0⟩⟩ 1
  obtain ⟨dialogueRan, dialogueSink⟩ :=
    Console.run_turns clock lines ⟨e, Transcript.unlimited, ""⟩ 1 neutral
  obtain ⟨engine, result⟩ :=
    Console.run_of_neutral clock lines ⟨e, Transcript.unlimited, ""⟩ 1 neutral
  have scriptCode : script.code = if ∀ line ∈ lines, (Text.decode line).isSome then 0 else 1 :=
    finish_code _ _ (Batch.run_result clock lines _ 1)
  have dialogueCode : dialogue.code = if ∀ line ∈ lines, (Text.decode line).isSome then 0 else 1 :=
    finish_code _ _ result
  refine ⟨Engine.map_text_turns _ _ _, scriptRan, dialogueRan, ?_, ?_, ?_, scriptCode,
    dialogueCode.trans scriptCode.symm⟩
  · -- the engine at the end is the one that all trees lead to
    exact engine.trans (Engine.run_engine clock lines ⟨e, Transcript.unlimited, [], ⟨0, 0⟩⟩ 1).symm
  · change (finish _ _ _).output.written.toList = _
    rw [finish_output]
    exact (congrArg (fun t => t.written.toList) scriptSink).trans
      (Transcript.toList_written_unlimited _)
  · change (finish _ _ _).output.written.toList = _
    rw [finish_output]
    exact (congrArg (fun t => t.written.toList) dialogueSink).trans
      (Transcript.toList_written_unlimited _)

/-- A line with blanks around it and a carriage return, an empty one, a statement that fails, and
bytes that are not a text, at the end of the input and without a line feed. -/
theorem dialogue_follows_script_cut :
    let input := Text.utf8
      " (CREATE (TABLE t) (ATTRIBUTES (ATTRIBUTE a INT)))\t\r\n\n(DROP (TABLE u))\n" ++ [40, 255]
    let clock : Nat → Nat := fun number => 10 * number
    let e := Engine.ofSettings .standard
    let first := "(CREATE (TABLE t) (ATTRIBUTES (ATTRIBUTE a INT)))"
    let third := "(DROP (TABLE u))"
    let prompt := Text.utf8 "simdb> "
    let script := run .standard clock (.script input)
    let dialogue := run .standard clock (.dialogue input)
    script.output.written.toList
        = e.emitted 10 first ++ (e.left first).emitted 30 third ∧
      dialogue.output.written.toList
        = prompt ++ e.emitted 10 first ++ prompt ++ prompt ++ (e.left first).emitted 30 third
          ++ prompt ∧
      script.code = 1 ∧ dialogue.code = 1 := by
  intro input clock e first third prompt script dialogue
  have texts : Batch.texts (Text.linesOf input) = [first, "", third] := by decide +kernel
  have neutral : ∀ text ∈ Batch.texts (Text.linesOf input), Console.Neutral text := by
    rw [texts]
    decide +kernel
  -- the last line is no text, and it ends both runs
  have unreadable : ¬ ∀ line ∈ Text.linesOf input, (Text.decode line).isSome := by decide +kernel
  obtain ⟨-, -, -, -, scriptOutput, dialogueOutput, code, same⟩ :=
    dialogue_follows_script .standard clock input neutral
  -- of the three turns the second holds no statement
  have turns : e.turns clock 1 (Batch.texts (Text.linesOf input))
      = [⟨e, first, e.emitted 10 first⟩, ⟨e.left first, "", []⟩,
        ⟨e.left first, third, (e.left first).emitted 30 third⟩] := by
    have held : Batch.HoldsStatement first := by decide +kernel
    have unheld : ¬ Batch.HoldsStatement "" := by decide +kernel
    have held' : Batch.HoldsStatement third := by decide +kernel
    rw [texts, Engine.turns_of_holds held, Engine.turns_of_not_holds unheld,
      Engine.turns_of_holds held']
    rfl
  rw [if_neg unreadable] at code
  refine ⟨scriptOutput.trans ?_, dialogueOutput.trans ?_, code, same.trans code⟩
  · rw [turns]
    simp
  · rw [turns]
    simp [prompt, Console.prompt]

end CommandLine

end RelEngine
