import RelEngine.Error
import RelEngine.Proofs.Results
import RelEngine.Proofs.TreeGrammar

/-!
# Readers that backtrack

A reader of statement trees can be put together from small ones: one after the other, one or else
another, one as often as it goes. Each of them tells where it has stopped when it does not go on
(`Stop`), and what was missing there. Most of what they tell is thrown away. Of two alternatives it is
the second that is heard, and both have begun at the same place. A repetition takes the stop of what it
repeats for its own end. So what is told at last is no account of the innermost failure.

The tree reader is put together in that way here (`item`, `whole`), with every stop in it. It goes
round through itself, since the branches of a node are trees, and is given by an equation. The equation
has one solution and no other (`eq_item_iff`): a node is read from a shorter text than the tree around
it, so by induction on the length of the text there is one answer to be given at every place. It is
that of `readTree`, and where that one has none, the stop is at the beginning of the text, behind its
gap, however far the alternatives have gone (`answer`).

* `atom_eq` — atoms, where the quoted alternative is forgotten;
* `many_eq` — branches, where a stop becomes an end;
* `eq_item_iff` — the equation of the tree reader has one solution;
* `whole_eq_ofText` — whole texts are read as `ofText` reads them, stops included.
-/

namespace RelEngine.Tree

/-! ### Stops -/

/-- **What is missing** where a reader stops. -/
inductive Missing where
  | character | oneOf | noneOf | word | progress | ending
deriving DecidableEq, Repr

/-- The name by which a missing part is reported. -/
def Missing.name : Missing → String
  | character => "Char"
  | oneOf => "OneOf"
  | noneOf => "NoneOf"
  | word => "TakeWhile1"
  | progress => "Many0"
  | ending => "Eof"

/-- **Where a reader stops**: the text that it has not read, and what is missing there. -/
structure Stop where
  rest : List Char
  missing : Missing
deriving DecidableEq, Repr

/-- The wording of a stop. -/
def Stop.message (stop : Stop) : String :=
  "Parsing Error: Error \x7b input: " ++ Text.quoted stop.rest ++ ", code: " ++ stop.missing.name ++
    " \x7d"

/-- The stop that a fault goes back to. -/
def ReadFault.stop : ReadFault → Stop
  | trailing rest => ⟨rest, .ending⟩
  | unreadable text => ⟨text, .word⟩

/-- A reader stops for the end of the text exactly when something trails behind a tree. -/
theorem ReadFault.stop_eq_ending_iff {fault : ReadFault} {rest : List Char} :
    fault.stop = ⟨rest, .ending⟩ ↔ fault = .trailing rest := by
  cases fault <;> simp [stop]

/-- It stops for a word exactly when there is no tree to read. -/
theorem ReadFault.stop_eq_word_iff {fault : ReadFault} {text : List Char} :
    fault.stop = ⟨text, .word⟩ ↔ fault = .unreadable text := by
  cases fault <;> simp [stop]

/-- A fault is worded as the stop that it goes back to. -/
theorem ReadFault.message_eq (fault : ReadFault) :
    (Error.unreadable fault).message = "parse error: " ++ fault.stop.message := by
  cases fault <;> rfl

/-- **Readers that tell where they stop.** -/
abbrev Reader (α : Type) := StateT (List Char) (Except Stop) α

namespace Reader

/-! ### Small readers -/

variable {α β : Type}

/-- One character of a class. -/
def one (p : Char → Bool) (missing : Missing) : Reader Char
  | [] => .error ⟨[], missing⟩
  | c :: rest => if p c then .ok (c, rest) else .error ⟨c :: rest, missing⟩

/-- As many characters of a class as there are, and at least one. -/
def word (p : Char → Bool) : Reader (List Char) := fun s =>
  match s.takeWhile p with
  | [] => .error ⟨s, .word⟩
  | c :: cs => .ok (c :: cs, s.dropWhile p)

/-- A gap, which may be empty. -/
def gap : Reader Unit := fun s => .ok ((), Text.dropGap s)

/-- **Ordered choice.** The second alternative begins where the first has begun, and if both stop, it
is the second that tells. -/
def either (first second : Reader α) : Reader α := fun s =>
  match first s with
  | .ok answer => .ok answer
  | .error _ => second s

/-- **Repetition.** Where the repeated reader stops the repetition ends, and that it has stopped is
forgotten. To read nothing would go on for ever, so that stops the repetition itself. -/
def many (p : Reader α) (s : List Char) : Except Stop (List α × List Char) :=
  match p s with
  | .error _ => .ok ([], s)
  | .ok (a, rest) =>
    if rest.length < s.length then
      match many p rest with
      | .error stop => .error stop
      | .ok (as, behind) => .ok (a :: as, behind)
    else .error ⟨s, .progress⟩
termination_by s.length

/-- A reader that has to read everything. -/
def all (p : Reader α) (s : List Char) : Except Stop α :=
  match p s with
  | .error stop => .error stop
  | .ok (a, []) => .ok a
  | .ok (_, c :: rest) => .error ⟨c :: rest, .ending⟩

/-! ### Readers of trees -/

/-- A character inside quotes, as it is or behind a backslash. -/
def inside : Reader Char :=
  either (one (fun c => c != '\\' && c != '"') .noneOf) do
    let _ ← one (· == '\\') .character
    one (fun c => c == '\\' || c == '"') .oneOf

/-- A quoted atom. -/
def quoted : Reader (List Char) := do
  let _ ← one (· == '"') .character
  let text ← many inside
  let _ ← one (· == '"') .character
  return text

/-- An atom. -/
def atom : Reader (List Char) := either quoted (word isBare)

/-- A node in its parentheses, with a reader of trees for its branches. -/
def parenthesized (node : Reader Tree) : Reader Tree := do
  let _ ← one (· == '(') .character
  gap
  let kind ← atom
  let branches ← many node
  gap
  let _ ← one (· == ')') .character
  return .node (String.ofList kind) branches

/-- An atom that stands for itself. -/
def plain : Reader Tree := do
  let text ← atom
  return leaf (String.ofList text)

/-- **A tree**, with a reader of trees for the branches below it. -/
def item (node : Reader Tree) : Reader Tree := do
  gap
  either (parenthesized node) plain

/-- **A text that is one tree**, with a gap behind it. -/
def whole (node : Reader Tree) (s : String) : Except Stop Tree :=
  all (do
    let t ← node
    gap
    return t) s.toList

/-! ### One step after another -/

variable {p : Reader α} {f : α → Reader β} {s rest : List Char}

/-- A sequence goes on with what the first reader has left. -/
theorem bind_of_ok {a : α} (h : p s = .ok (a, rest)) : (p >>= f) s = f a rest := by
  change (p s >>= fun answer => f answer.1 answer.2) = _
  rw [h]
  rfl

/-- A sequence stops where its first reader stops. -/
theorem bind_of_error {stop : Stop} (h : p s = .error stop) : (p >>= f) s = .error stop := by
  change (p s >>= fun answer => f answer.1 answer.2) = _
  rw [h]
  rfl

theorem either_of_ok {second : Reader α} {answer : α × List Char} (h : p s = .ok answer) :
    either p second s = .ok answer := by
  rw [either, h]

/-- The second alternative starts over at the same text, and the first one's stop is lost. -/
theorem either_of_error {second : Reader α} {stop : Stop} (h : p s = .error stop) :
    either p second s = second s := by
  rw [either, h]

/-- A gap is never missing, since it may be empty. -/
theorem gap_bind {f : Unit → Reader β} : (gap >>= f) s = f () (Text.dropGap s) := rfl

theorem one_cons_of_pos {p : Char → Bool} {c : Char} (h : p c = true) (missing : Missing) :
    one p missing (c :: rest) = .ok (c, rest) :=
  if_pos h

theorem one_cons_of_neg {p : Char → Bool} {c : Char} (h : p c = false) (missing : Missing) :
    one p missing (c :: rest) = .error ⟨c :: rest, missing⟩ := by
  rw [one, h]
  rfl

/-- A character that is not at the beginning stops its reader there. -/
theorem one_beq_of_not {c : Char} (h : ∀ rest, s ≠ c :: rest) (missing : Missing) :
    one (· == c) missing s = .error ⟨s, missing⟩ := by
  cases s with
  | nil => rfl
  | cons d rest =>
    have other : d ≠ c := by
      rintro rfl
      exact h rest rfl
    apply one_cons_of_neg
    exact beq_false_of_ne other

/-- A repetition ends, without an error, where no further element can be read. -/
theorem many_of_error {stop : Stop} (h : p s = .error stop) : many p s = .ok ([], s) := by
  rw [many, h]

/-- It goes on as long as elements are read and the text gets shorter. -/
theorem many_of_ok {a : α} {as : List α} {behind : List Char} (h : p s = .ok (a, rest))
    (lt : rest.length < s.length) (more : many p rest = .ok (as, behind)) :
    many p s = .ok (a :: as, behind) := by
  rw [many, h]
  dsimp only
  rw [if_pos lt, more]

/-! ### Atoms -/

/-- Within quotes a character stands for itself, unless it is a quote or a backslash. -/
theorem inside_of_plain {c : Char} (notQuote : c ≠ '"') (notEscape : c ≠ '\\') :
    inside (c :: rest) = .ok (c, rest) :=
  either_of_ok (one_cons_of_pos (by simp [notQuote, notEscape]) _)

/-- A backslash needs one of the two special characters behind it. -/
theorem inside_of_escape (c : Char) :
    inside ('\\' :: c :: rest)
      = one (fun c => c == '\\' || c == '"') .oneOf (c :: rest) := by
  rw [inside, either_of_error (one_cons_of_neg (by decide) _)]
  exact bind_of_ok (one_cons_of_pos (by decide) _)

/-- A quoted atom, once its inside has been read: there has to be a closing quote. -/
def closed (text : List Char) : List Char → Option (List Char × List Char)
  | '"' :: rest => some (text, rest)
  | _ => none

/-- Without a quote behind it, a quoted text is not closed. -/
theorem closed_of_not_quote {text behind : List Char} (h : ∀ rest, behind ≠ '"' :: rest) :
    closed text behind = none := by
  unfold closed
  split
  · next rest => exact absurd rfl (h rest)
  · rfl

/-- Whether a quoted text is closed does not hang on what stands in it. -/
theorem closed_cons (c : Char) (text behind : List Char) :
    closed (c :: text) behind = (closed text behind).map fun p => (c :: p.1, p.2) := by
  by_cases quote : ∃ rest, behind = '"' :: rest
  · obtain ⟨rest, rfl⟩ := quote
    rfl
  · have unclosed : ∀ rest, behind ≠ '"' :: rest := fun rest same => quote ⟨rest, same⟩
    rw [closed_of_not_quote unclosed, closed_of_not_quote unclosed]
    rfl

/-- **The inside of a quoted atom** is read as far as it goes, and then its quote is closed or not. -/
def InsideRead (s : List Char) : Prop :=
  ∃ text behind, many inside s = .ok (text, behind) ∧ readQuoted s = closed text behind

/-- A character more goes before what is read behind it. -/
theorem InsideRead.cons {c : Char} (here : inside s = .ok (c, rest)) (lt : rest.length < s.length)
    (same : readQuoted s = (readQuoted rest).map fun p => (c :: p.1, p.2)) (h : InsideRead rest) :
    InsideRead s := by
  obtain ⟨text, behind, more, read⟩ := h
  refine ⟨c :: text, behind, many_of_ok here lt more, ?_⟩
  rw [same, read, closed_cons]

/-- Where no character can be read the inside ends. -/
theorem InsideRead.of_stop {stop : Stop} (here : inside s = .error stop)
    (same : readQuoted s = closed [] s) : InsideRead s :=
  ⟨[], s, many_of_error here, same⟩

/-- **The inside of a quoted text** is read character by character, as far as `readQuoted` goes. -/
theorem insideRead (s : List Char) : InsideRead s := by
  -- along the recursion of `readQuoted`, which has a case for each of the readers inside
  induction s using readQuoted.induct with
  | case1 => exact .of_stop rfl rfl
  | case2 r => exact .of_stop rfl rfl
  | case3 c r special ih =>
    have here : inside ('\\' :: c :: r) = .ok (c, r) := by
      rw [inside_of_escape]
      exact one_cons_of_pos (by simpa using special) _
    apply InsideRead.cons here _ _ ih
    · rw [List.length_cons, List.length_cons]
      omega
    · rw [readQuoted, if_pos special]
  | case4 c r plain =>
    -- a backslash before another character is no element, so the repetition ends here
    have here : inside ('\\' :: c :: r) = .error ⟨c :: r, .oneOf⟩ := by
      rw [inside_of_escape]
      exact one_cons_of_neg (by simpa using plain) _
    apply InsideRead.of_stop here
    rw [readQuoted, if_neg plain]
    rfl
  | case5 => exact .of_stop rfl rfl
  | case6 c r notQuote notEscape notLast ih =>
    -- a backslash would have something behind it or nothing, and neither is left
    have notBackslash : c ≠ '\\' := by
      rintro rfl
      cases r with
      | nil => exact notLast rfl rfl
      | cons d r => exact notEscape d r rfl rfl
    apply InsideRead.cons (inside_of_plain notQuote notBackslash) _ _ ih
    · exact Nat.lt_succ_self _
    · rw [readQuoted]
      all_goals assumption

/-- **What is found, or else a stop.** The stop is where a word would have begun. -/
def answered (found : Option (α × List Char)) (s : List Char) : Except Stop (α × List Char) :=
  found.elim (.error ⟨s, .word⟩) .ok

/-- Behind an opening quote both readers give the same text or both fail. -/
theorem quoted_cons (s : List Char) :
    ∃ stop, quoted ('"' :: s) = (readQuoted s).elim (.error stop) .ok := by
  obtain ⟨text, behind, inner, read⟩ := insideRead s
  refine ⟨⟨behind, .character⟩, ?_⟩
  rw [quoted, bind_of_ok (one_cons_of_pos (by decide) _), bind_of_ok inner, read]
  -- the repetition has ended at the closing quote or at something else
  by_cases quote : ∃ rest, behind = '"' :: rest
  · obtain ⟨rest, rfl⟩ := quote
    rw [bind_of_ok (one_cons_of_pos (by decide) _)]
    rfl
  · have unclosed : ∀ rest, behind ≠ '"' :: rest := fun rest same => quote ⟨rest, same⟩
    rw [bind_of_error (one_beq_of_not unclosed _), closed_of_not_quote unclosed]
    rfl

/-- **Atoms** are read as they are read without a choice, and where there is none the bare word is
missing: it is the second alternative. -/
theorem atom_eq (s : List Char) : atom s = answered (readAtom s) s := by
  -- a text that opens with a quote is not tried as a word by the one reader, but by the other
  by_cases quote : ∃ rest, s = '"' :: rest
  · obtain ⟨rest, rfl⟩ := quote
    obtain ⟨stop, same⟩ := quoted_cons rest
    change atom ('"' :: rest) = answered (readQuoted rest) ('"' :: rest)
    cases read : readQuoted rest with
    | none =>
      rw [read] at same
      rw [atom, either_of_error same]
      rfl
    | some answer =>
      rw [read] at same
      exact either_of_ok same
  · have bare : ∀ rest, s ≠ '"' :: rest := fun rest same => quote ⟨rest, same⟩
    have stops : quoted s = .error ⟨s, .character⟩ := bind_of_error (one_beq_of_not bare _)
    have read : readAtom s =
        match s.takeWhile isBare with
        | [] => none
        | c :: rest => some (c :: rest, s.dropWhile isBare) := by
      unfold readAtom
      split
      · next rest => exact absurd rfl (bare rest)
      · rfl
    -- what is left is the longest run of bare characters, which must not be empty
    rw [atom, either_of_error stops, read, word]
    cases s.takeWhile isBare <;> rfl

/-! ### Trees -/

/-- **The answer of the tree reader**: the tree and what is behind it, or else a stop at the beginning
of the text, behind its gap. -/
def answer : Reader Tree := fun s => answered (readTree s) (Text.dropGap s)

variable {node : Reader Tree}

/-- **Branches** are read as long as there are trees, and the stop at their end is forgotten. -/
theorem many_eq (each : ∀ r, r.length ≤ s.length → node r = answer r) :
    many node s = .ok (readBranches s) := by
  -- on the length of the text, since an element takes some of it away
  induction n : s.length using Nat.strong_induction_on generalizing s with
  | _ n ih =>
    subst n
    have here := each s le_rfl
    cases read : readTree s with
    | none =>
      rw [answer, read] at here
      rw [many_of_error here, readBranches_of_none read]
    | some p =>
      obtain ⟨t, rest⟩ := p
      have lt := readTree_length_lt read
      rw [answer, read] at here
      have more : many node rest = .ok ((readBranches rest).1, (readBranches rest).2) :=
        ih _ lt (fun r le => each r (le.trans lt.le)) rfl
      rw [many_of_ok here lt more, readBranches_of_some read]

/-- A leaf is an atom. -/
theorem plain_eq (s : List Char) :
    plain s = answered ((readAtom s).map fun p => (leaf (String.ofList p.1), p.2)) s := by
  have atomic := atom_eq s
  cases read : readAtom s with
  | none =>
    rw [read] at atomic
    exact bind_of_error atomic
  | some p =>
    rw [read] at atomic
    exact bind_of_ok atomic

/-- A node is read as it is read without stops, from answers at shorter texts. -/
theorem parenthesized_open {inside : List Char} (opens : Text.dropGap s = '(' :: inside)
    (shorter : ∀ r, r.length < s.length → node r = answer r) :
    ∃ stop, parenthesized node ('(' :: inside) = (readTree s).elim (.error stop) .ok := by
  have within : inside.length < s.length := by
    have le := Text.dropGap_length_le s
    rw [opens, List.length_cons] at le
    omega
  have start : ∀ {β : Type} (f : Char → Reader β),
      (one (· == '(') .character >>= f) ('(' :: inside) = f '(' inside :=
    fun f => bind_of_ok (one_cons_of_pos (by decide) _)
  have atomic := atom_eq (Text.dropGap inside)
  rw [readTree_of_open opens, parenthesized, start, gap_bind]
  cases read : readAtom (Text.dropGap inside) with
  | none =>
    rw [read] at atomic
    exact ⟨_, bind_of_error atomic⟩
  | some p =>
    obtain ⟨kind, r⟩ := p
    rw [read] at atomic
    -- the branches are behind the kind, and so in a shorter text
    have lt : r.length < s.length := by
      have kindLt := readAtom_length_lt read
      have gapLe := Text.dropGap_length_le inside
      omega
    have each : many node r = .ok ((readBranches r).1, (readBranches r).2) :=
      many_eq fun r' le => shorter r' (le.trans_lt lt)
    rw [bind_of_ok atomic, bind_of_ok each, gap_bind]
    dsimp only
    -- behind the branches stands the closing parenthesis, or the node is not closed
    by_cases closes : ∃ rest, Text.dropGap (readBranches r).2 = ')' :: rest
    · obtain ⟨rest, closes⟩ := closes
      rw [closes, bind_of_ok (one_cons_of_pos (by decide) _)]
      exact ⟨⟨[], .character⟩, rfl⟩
    · have unclosed : ∀ rest, Text.dropGap (readBranches r).2 ≠ ')' :: rest :=
        fun rest same => closes ⟨rest, same⟩
      rw [bind_of_error (one_beq_of_not unclosed _)]
      refine ⟨⟨Text.dropGap (readBranches r).2, .character⟩, ?_⟩
      split
      · next rest same => exact absurd same (unclosed rest)
      · rfl

/-- **One tree**, from answers at shorter texts. Both alternatives begin behind the gap, and a text
that opens a parenthesis is no atom: whatever the first alternative has missed and wherever, the second
misses a word at the parenthesis. -/
theorem item_eq (shorter : ∀ r, r.length < s.length → node r = answer r) :
    item node s = answer s := by
  rw [item, gap_bind, answer]
  -- a node is tried first, and when this fails a word is tried at the same place
  by_cases opens : ∃ inside, Text.dropGap s = '(' :: inside
  · obtain ⟨inside, opens⟩ := opens
    obtain ⟨stop, first⟩ := parenthesized_open opens shorter
    rw [opens]
    cases read : readTree s with
    | none =>
      rw [read] at first
      -- no word begins with a parenthesis, so the second try fails as well
      rw [either_of_error first, plain_eq]
      rfl
    | some p =>
      rw [read] at first
      exact either_of_ok first
  · have bare : ∀ inside, Text.dropGap s ≠ '(' :: inside := fun inside same => opens ⟨inside, same⟩
    have first : parenthesized node (Text.dropGap s) = .error ⟨Text.dropGap s, .character⟩ :=
      bind_of_error (one_beq_of_not bare _)
    rw [either_of_error first, plain_eq, readTree_of_not_open bare]

/-- **The equation of the tree reader** has one solution. -/
theorem eq_item_iff : node = item node ↔ node = answer := by
  constructor
  · intro recursive
    funext s
    induction n : s.length using Nat.strong_induction_on generalizing s with
    | _ n ih =>
      subst n
      rw [recursive]
      exact item_eq fun r lt => ih r.length lt r rfl
  · rintro rfl
    funext s
    exact (item_eq fun _ _ => rfl).symm

/-- **Whole texts** are read as by the equation of the tree reader, and a fault goes back to the stop
that this reader makes. -/
theorem whole_eq_ofText (recursive : node = item node) (s : String) :
    whole node s = (ofText s).mapError ReadFault.stop := by
  obtain rfl := eq_item_iff.1 recursive
  rw [whole, all, ofText, read]
  cases found : readTree s.toList with
  | none =>
    -- no tree was read, so the text stops before its first word
    have stops : answer s.toList = .error ⟨Text.dropGap s.toList, .word⟩ := by
      rw [answer, found]
      rfl
    rw [bind_of_error stops]
    rfl
  | some p =>
    obtain ⟨t, rest⟩ := p
    have reads : answer s.toList = .ok (t, rest) := by
      rw [answer, found]
      rfl
    -- a tree was read, so the rest decides
    rw [bind_of_ok reads, gap_bind]
    dsimp only
    cases Text.dropGap rest <;> rfl

end Reader

end RelEngine.Tree
