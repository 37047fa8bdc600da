import Mathlib.Logic.Basic
import RelEngine.Proofs.Backtracking

/-!
# Where reading fails

A text that is not one tree is reported with what is left of it. There are two places that this can
be, whatever has gone wrong and however deep. Either a tree is spelled at the beginning of the text, and
then what stands behind it is left, or no tree is, and then the whole text is.

A text has no choice between the two. What is spelled at the beginning is read
(`readTree_of_spells`), and a reader gives one answer, so there are not two trees there or two ways
for one to end (`BeginsWith.unique`). What is read is spelled (`exists_spells`), so a text that no tree
begins is not read, and every failure inside it comes back to where it begins (`Reader.item_eq`).

* `readTree_eq_some_iff` — what stands at the beginning of a text, said with and without a reader;
* `ofText_eq_error_iff_located` — which faults a text has, and with which rest of it.
-/

namespace RelEngine.Tree

/-! ### Beginnings -/

/-- **Texts that begin with a tree**, and what stands behind it. -/
def BeginsWith (u : List Char) (t : Tree) (behind : List Char) : Prop :=
  ∃ word, u = word ++ behind ∧ Spells word t behind

variable {s u word behind behind' : List Char} {t t' : Tree}

/-- A spelling begins with its parenthesis or with its atom, never with a gap. -/
theorem Spells.dropGap_append (h : Spells word t behind) :
    Text.dropGap (word ++ behind) = word ++ behind := by
  cases h with
  | leaf atom =>
    obtain ⟨c, tail, rfl, notGap, -, -⟩ := atom.exists_cons
    exact dropGap_cons notGap _
  | node before atom each after => exact dropGap_cons (by decide) _

/-- **What stands at the beginning of a text** behind its gap is what is read there. -/
theorem readTree_eq_some_iff :
    readTree s = some (t, behind) ↔ BeginsWith (Text.dropGap s) t behind := by
  constructor
  · intro read
    -- what is read was spelled behind a gap, and the gap is what is dropped
    obtain ⟨gap, word, rfl, isGap, spelled⟩ := exists_spells read
    refine ⟨word, ?_, spelled⟩
    rw [dropGap_append isGap, spelled.dropGap_append]
  · rintro ⟨word, split, spelled⟩
    -- the text is that gap and what follows it, where the tree is spelled
    obtain ⟨gap, isGap, whole⟩ := exists_gap s
    rw [whole, split]
    exact readTree_of_spells isGap spelled

/-- A text that begins with a tree does not begin with a gap. -/
theorem BeginsWith.dropGap_eq (h : BeginsWith u t behind) : Text.dropGap u = u := by
  obtain ⟨word, rfl, spelled⟩ := h
  exact spelled.dropGap_append

/-- A text begins with one tree at most, and that tree ends in one place. -/
theorem BeginsWith.unique (h : BeginsWith u t behind) (h' : BeginsWith u t' behind') :
    t = t' ∧ behind = behind' := by
  have flush := h.dropGap_eq
  -- the reader gives one answer, and both beginnings are answers
  have here : readTree u = some (t, behind) := readTree_eq_some_iff.2 (by rwa [flush])
  have there : readTree u = some (t', behind') := readTree_eq_some_iff.2 (by rwa [flush])
  rw [here] at there
  exact Prod.mk.inj (Option.some.inj there)

/-- Nothing is read where no tree begins, and only there. -/
theorem readTree_eq_none_iff :
    readTree s = none ↔ ∀ t behind, ¬ BeginsWith (Text.dropGap s) t behind := by
  rw [Option.eq_none_iff_forall_ne_some, Prod.forall]
  exact forall₂_congr fun t behind => not_congr readTree_eq_some_iff

/-! ### Faults -/

variable {fault : ReadFault}

/-- Behind a tree, the fault is what the gap there leaves, if it leaves anything. -/
theorem read_eq_error_iff_of_some (found : readTree s = some (t, behind)) :
    read s = .error fault ↔
      Text.dropGap behind ≠ [] ∧ fault = .trailing (Text.dropGap behind) := by
  rw [read, found]
  dsimp only
  -- a text that is used up has no fault, and any other has this one
  cases left : Text.dropGap behind with
  | nil => simp
  | cons c rest => simp [eq_comm]

/-- Without a tree, the fault is the text without its gap. -/
theorem read_eq_error_iff_of_none (none : readTree s = none) :
    read s = .error fault ↔ fault = .unreadable (Text.dropGap s) := by
  rw [read, none]
  simp [eq_comm]

/-- **Faults are located.** Let `u` be a text without its leading gap. The text has a fault if one of
two things can be said of it, and not the other. Either a tree is spelled at the beginning of `u`,
and whatever tree it is and wherever it ends, something is left behind it and the gap there, which is
where the ending is missing. Or no tree is spelled there, and a word is missing at `u` itself.

The fault is worded as that stop, and it is the stop that a reader with backtracking makes, which is
given by its equation. -/
theorem ofText_eq_error_iff_located (s : String) (fault : ReadFault) :
    let u := Text.dropGap s.toList
    (ofText s = .error fault ↔
      Xor
        ((∃ t behind, BeginsWith u t behind) ∧ ∀ t behind, BeginsWith u t behind →
          let rest := Text.dropGap behind
          rest ≠ [] ∧ fault.stop = ⟨rest, .ending⟩)
        ((∀ t behind, ¬ BeginsWith u t behind) ∧ fault.stop = ⟨u, .word⟩)) ∧
    (Error.unreadable fault).message = "parse error: " ++ fault.stop.message ∧
    (∃! node : Reader Tree, node = Reader.item node) ∧
    ∀ node : Reader Tree, node = Reader.item node →
      Reader.whole node s = (ofText s).mapError ReadFault.stop := by
  intro u
  refine ⟨?_, fault.message_eq, ?_, fun node recursive => Reader.whole_eq_ofText recursive s⟩
  · rw [ofText]
    cases found : readTree s.toList with
    | none =>
      -- the second case, and a tree at the beginning would be the first
      have treeless : ∀ t behind, ¬ BeginsWith u t behind := readTree_eq_none_iff.1 found
      rw [read_eq_error_iff_of_none found, ← ReadFault.stop_eq_word_iff]
      constructor
      · intro same
        refine .inr ⟨⟨treeless, same⟩, ?_⟩
        rintro ⟨⟨t, behind, begins⟩, -⟩
        exact treeless t behind begins
      · rintro (⟨⟨⟨t, behind, begins⟩, -⟩, -⟩ | ⟨⟨-, same⟩, -⟩)
        · exact absurd begins (treeless t behind)
        · exact same
    | some p =>
      obtain ⟨t, behind⟩ := p
      -- the first case, with the one tree that is there
      have begins : BeginsWith u t behind := readTree_eq_some_iff.1 found
      rw [read_eq_error_iff_of_some found, ← ReadFault.stop_eq_ending_iff]
      constructor
      · rintro ⟨left, same⟩
        refine .inl ⟨⟨⟨t, behind, begins⟩, fun t' behind' begins' => ?_⟩, ?_⟩
        · -- there is no other tree to end elsewhere
          obtain ⟨rfl, rfl⟩ := begins.unique begins'
          exact ⟨left, same⟩
        · rintro ⟨treeless, -⟩
          exact treeless t behind begins
      · rintro (⟨⟨-, each⟩, -⟩ | ⟨⟨treeless, -⟩, -⟩)
        · exact each t behind begins
        · exact absurd begins (treeless t behind)
  · exact ⟨Reader.answer, Reader.eq_item_iff.2 rfl, fun node => Reader.eq_item_iff.1⟩

/-- A quote that is never closed, two parentheses deep, takes the report back to the outermost
parenthesis. -/
example : ofText "\t(a (b c) (d \"e) f)" = .error (.unreadable "(a (b c) (d \"e) f)".toList) := by
  decide +kernel

end RelEngine.Tree
