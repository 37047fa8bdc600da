import RelEngine.Proofs.Delivery

/-!
# Output that is cut off

Two runs of the same texts on the same engine, which differ in the sink that all of their output
goes to. One sink takes everything, the other takes `n` bytes and then refuses. The limited run does
to the engine what the unlimited one does. Its sink gets the first `n` bytes of the other's, and its
caller hears of the same errors, and beyond them of a closed output where a statement has succeeded
whose output goes past the `n` bytes (`Engine.session_cut`).

A transcript takes lines and reports in one way, whether it is limited or not: it is extended by
their bytes as far as it has room (`Transcript.extend`), and all was taken if it had room for all of
them (`Transcript.hasRoom`). Both go along with concatenation, so that it does not matter at which
text, between which texts or inside which statement the room runs out. The relation `CutOf` between
the transcripts is kept by extending both, and the two runs go on in it.
-/

namespace RelEngine

/-- The bytes of some lines, each with its line feed. -/
def Text.lineBytes (lines : List String) : Text.Bytes :=
  lines.flatMap fun line => Text.utf8 (line.push '\n')

/-! ### Extending a transcript -/

namespace Transcript

/-- The transcript with more bytes, as far as there is room. -/
def extend (t : Transcript) (bytes : Text.Bytes) : Transcript :=
  match t.room with
  | none => ⟨t.written ++ bytes, none⟩
  | some n => ⟨t.written ++ bytes.take n, some (n - bytes.length)⟩

/-- Whether there is room for all of some bytes. -/
def hasRoom (t : Transcript) (bytes : Text.Bytes) : Bool :=
  match t.room with
  | none => true
  | some n => bytes.length ≤ n

/-- A text is put by its bytes: as many as there is room for are taken, and the sink says whether
that was all. -/
theorem put_eq (t : Transcript) (text : String) :
    Sink.put t text = (t.extend (Text.utf8 text), t.hasRoom (Text.utf8 text)) := by
  change t.put text = _
  unfold put extend hasRoom
  cases t.room <;> rfl

/-- A sink without limit takes all bytes. -/
theorem extend_of_unlimited {t : Transcript} (unlimited : t.room = none) (bytes : Text.Bytes) :
    t.extend bytes = ⟨t.written ++ bytes, none⟩ := by
  rw [extend, unlimited]

/-- An empty transcript has then taken just these bytes. -/
theorem toList_written_unlimited (bytes : Text.Bytes) :
    (unlimited.extend bytes).written.toList = bytes := by
  rw [extend_of_unlimited rfl]
  simp [unlimited]

/-- A limited one takes the first bytes, up to the room that is left. -/
theorem extend_of_room {t : Transcript} {n : Nat} (room : t.room = some n) (bytes : Text.Bytes) :
    t.extend bytes = ⟨t.written ++ bytes.take n, some (n - bytes.length)⟩ := by
  rw [extend, room]

theorem size_extend {t : Transcript} (unlimited : t.room = none) (bytes : Text.Bytes) :
    (t.extend bytes).written.size = t.written.size + bytes.length := by
  rw [extend_of_unlimited unlimited, ← Array.length_toList]
  simp

@[simp] theorem extend_nil (t : Transcript) : t.extend [] = t := by
  obtain ⟨written, _ | n⟩ := t <;> simp [extend]

@[simp] theorem hasRoom_nil (t : Transcript) : t.hasRoom [] = true := by
  obtain ⟨written, _ | n⟩ := t <;> simp [hasRoom]

/-- Bytes are taken alike at once and in two portions. -/
theorem extend_append (t : Transcript) (first second : Text.Bytes) :
    t.extend (first ++ second) = (t.extend first).extend second := by
  -- bytes are put to the end of an array as to the end of a list
  have assoc : ∀ (written : Array UInt8) (a b : Text.Bytes),
      written ++ (a ++ b) = written ++ a ++ b := fun _ _ _ => Array.toList_inj.1 (by simp)
  obtain ⟨written, _ | n⟩ := t
  · simp [extend, assoc]
  · simp [extend, assoc, List.take_append, Nat.sub_sub]

/-- There is room for two portions if there is for the first, and then for the second. -/
theorem hasRoom_append (t : Transcript) (first second : Text.Bytes) :
    t.hasRoom (first ++ second) = (t.hasRoom first && (t.extend first).hasRoom second) := by
  obtain ⟨written, _ | n⟩ := t
  · rfl
  · rw [Bool.eq_iff_iff]
    simp only [hasRoom, extend, List.length_append, Bool.and_eq_true, decide_eq_true_eq]
    -- what the first portion uses up is missing for the second
    omega

/-- A transcript that had no room for all takes nothing more. -/
theorem extend_extend_of_not_hasRoom {t : Transcript} {first : Text.Bytes}
    (refused : t.hasRoom first = false) (second : Text.Bytes) :
    (t.extend first).extend second = t.extend first := by
  obtain ⟨written, _ | n⟩ := t
  · cases refused
  · have past : n - first.length = 0 := by
      have := of_decide_eq_false refused
      omega
    simp [extend, past]

/-- **Putting lines** into a transcript extends it by their bytes, up to where the room runs out. -/
theorem putLines_eq (t : Transcript) (lines : List String) :
    Sink.putLines t lines
      = (t.extend (Text.lineBytes lines), t.hasRoom (Text.lineBytes lines)) := by
  induction lines generalizing t with
  | nil => simp [Sink.putLines, Text.lineBytes]
  | cons line rest ih =>
    have bytes : Text.lineBytes (line :: rest)
        = Text.utf8 (line.push '\n') ++ Text.lineBytes rest := List.flatMap_cons
    rw [Sink.putLines, put_eq, bytes, extend_append, hasRoom_append]
    cases taken : t.hasRoom (Text.utf8 (line.push '\n')) with
    | true => exact ih _
    | false =>
      -- the rest is not even tried, and would not have been taken
      rw [extend_extend_of_not_hasRoom taken]
      rfl

end Transcript

/-! ### Delivery into a transcript -/

namespace Outcome

/-- The bytes that a statement writes: what it prints, and its report. -/
def output (o : Outcome) (elapsed : Nat) : Text.Bytes :=
  Text.lineBytes o.printed ++ Text.lineBytes (o.report elapsed)

/-- A delivery always has something to write. -/
theorem output_ne_nil (o : Outcome) (elapsed : Nat) : o.output elapsed ≠ [] := by
  -- the report ends with a blank line, so with a line feed
  have blank : (10 : UInt8) ∈ Text.lineBytes (o.report elapsed) :=
    List.mem_flatMap.2 ⟨"", by simp [report, Cost.lines], by decide +kernel⟩
  exact List.append_ne_nil_of_right_ne_nil _ (List.ne_nil_of_mem blank)

/-- **A delivery writes its output**, as far as there is room. It stops early after a put that did
not fit, and no later one would have left a byte. -/
theorem deliver_transcript (o : Outcome) (elapsed : Nat) (t : Transcript) :
    (o.deliver elapsed t).sink = t.extend (o.output elapsed) := by
  have printed : (Sink.print t o.result).1 = t.extend (Text.lineBytes o.printed) := by
    unfold Outcome.printed
    -- lines are printed for a result only, and the report is printed either way
    cases o.result with
    | error err => exact t.extend_nil.symm
    | ok lines =>
      rw [Sink.print_ok, Transcript.putLines_eq]
  rw [deliver_sink, printed, Transcript.putLines_eq, output, Transcript.extend_append]

/-- A statement that has succeeded is told so if there was room for all of its output. -/
theorem deliver_transcript_result {o : Outcome} {lines : List String} (h : o.result = .ok lines)
    (elapsed : Nat) (t : Transcript) :
    (o.deliver elapsed t).result =
      if t.hasRoom (o.output elapsed) then .ok () else .error .outputClosed := by
  have printed : o.printed = lines := by rw [Outcome.printed, h]
  rw [deliver_result_of_ok h, output, printed, Transcript.hasRoom_append, Transcript.putLines_eq,
    Transcript.putLines_eq]

end Outcome

/-! ### Two transcripts -/

namespace Transcript

/-- **A transcript cut off** after `n` bytes, and the one without limit that got the same. -/
structure CutOf (n : Nat) (full cut : Transcript) : Prop where
  unlimited : full.room = none
  room : cut.room = some (n - full.written.size)
  written : cut.written.toList = full.written.toList.take n

variable {n : Nat} {full cut : Transcript}

/-- At first both sinks are empty. -/
theorem cutOf_limited (n : Nat) : CutOf n Transcript.unlimited (limited n) :=
  ⟨rfl, rfl, List.take_nil.symm⟩

/-- Two sinks stay so when both are given the same bytes. -/
theorem CutOf.extend (h : CutOf n full cut) (bytes : Text.Bytes) :
    CutOf n (full.extend bytes) (cut.extend bytes) := by
  refine ⟨by rw [extend_of_unlimited h.unlimited], ?_, ?_⟩
  · rw [extend_of_room h.room, size_extend h.unlimited, Nat.sub_sub]
  · rw [extend_of_room h.room, extend_of_unlimited h.unlimited]
    -- the prefix of a whole is a prefix of its first part, and if there is room left, of the
    -- second
    simp [List.take_append, h.written]

/-- Where there is something to be taken, room for it is the same as not going past the limit. -/
theorem CutOf.hasRoom_iff (h : CutOf n full cut) {bytes : Text.Bytes} (some : bytes ≠ []) :
    cut.hasRoom bytes ↔ (full.extend bytes).written.size ≤ n := by
  have positive := List.length_pos_iff.2 some
  rw [size_extend h.unlimited, hasRoom, h.room, decide_eq_true_iff]
  omega

end Transcript

/-! ### Two runs -/

/-- **A reply cut off** after `n` bytes of all output so far, and the one without limit: the engine
is the same, and an error of the statement is the same. After a statement that has succeeded all
depends on whether the output has gone past the limit. -/
structure Reply.CutOf (n : Nat) (full cut : Reply Transcript) : Prop where
  engine : cut.engine = full.engine
  sink : full.sink.CutOf n cut.sink
  error : ∀ err, full.result = .error err → cut.result = .error err
  ok : full.result = .ok () →
    cut.result = if full.sink.written.size ≤ n then .ok () else .error .outputClosed

/-- **One delivery**, into a sink and into the same sink cut. -/
theorem Outcome.deliver_cutOf (o : Outcome) (elapsed : Nat) {n : Nat} {full cut : Transcript}
    (h : full.CutOf n cut) : (o.deliver elapsed full).CutOf n (o.deliver elapsed cut) where
  engine := by rw [deliver_engine, deliver_engine]
  sink := by
    rw [deliver_transcript, deliver_transcript]
    exact h.extend _
  error err failed := by
    cases ended : o.result with
    | error own =>
      rw [deliver_of_error ended] at failed ⊢
      exact failed
    | ok lines =>
      -- the sink without limit has taken all, so that there is no error
      rw [deliver_transcript_result ended, Transcript.hasRoom, h.unlimited] at failed
      cases failed
  ok succeeded := by
    cases ended : o.result with
    | error own =>
      rw [deliver_of_error ended] at succeeded
      cases succeeded
    | ok lines =>
      rw [deliver_transcript_result ended, deliver_transcript,
        if_congr (h.hasRoom_iff (o.output_ne_nil elapsed)) rfl rfl]

namespace Engine

/-- **A session**: texts run one after the other, each with the milliseconds that it is reported to
have taken, and all with one sink. There is a reply to each. -/
def session {σ : Type} [Sink σ] (e : Engine) (out : σ) : List (Nat × String) → List (Reply σ)
  | [] => []
  | (elapsed, text) :: rest =>
    let reply := e.executeText elapsed text out
    reply :: reply.engine.session reply.sink rest

/-- One text of a session. -/
theorem executeText_cutOf (e : Engine) (elapsed : Nat) (text : String) {n : Nat}
    {full cut : Transcript} (h : full.CutOf n cut) :
    (e.executeText elapsed text full).CutOf n (e.executeText elapsed text cut) := by
  unfold executeText prepare
  cases Tree.ofText text with
  | error fault =>
    -- nothing is done and nothing is written
    exact ⟨rfl, h, fun _ => id, nofun⟩
  | ok tree => exact (e.perform tree).deliver_cutOf elapsed h

theorem session_cutOf (inputs : List (Nat × String)) (e : Engine) {n : Nat}
    {full cut : Transcript} (h : full.CutOf n cut) :
    List.Forall₂ (Reply.CutOf n) (e.session full inputs) (e.session cut inputs) := by
  -- on the texts, for all engines, since each text leaves another one behind
  induction inputs generalizing e full cut with
  | nil => exact .nil
  | cons input rest ih =>
    obtain ⟨elapsed, text⟩ := input
    have reply := e.executeText_cutOf elapsed text h
    refine .cons reply ?_
    -- both go on with the same engine
    rw [reply.engine]
    exact ih _ reply.sink

/-- **A sink only cuts the output.** Run on an engine with a sink that takes `n` bytes, texts do to
the engine, one by one, what they do with a sink that takes everything. What the sink has got after
each is the first `n` bytes of what the other has got. A text that fails there fails here with the
same error; one that succeeds there succeeds here if all output up to its end has fitted, and else
the output is closed. -/
theorem session_cut (e : Engine) (inputs : List (Nat × String)) (n : Nat) :
    List.Forall₂ (Reply.CutOf n) (e.session Transcript.unlimited inputs)
      (e.session (Transcript.limited n) inputs) :=
  session_cutOf inputs e (Transcript.cutOf_limited n)

end Engine

end RelEngine
