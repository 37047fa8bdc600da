import RelEngine.Proofs.TreeGrammar

/-!
# Printed trees read back

A printed tree is one of the spellings of that tree (`spells_print`), so it is read back as the tree
itself. Leaves may hold any text, since an awkward text is printed in quotes. The kind of a node with
branches is printed as it is, so it has to be a bare word (`Printable`). A keyword always is one, in
whatever letter case it is spelled (`bare_of_is`).

That a spelling ends where it should is a matter of what follows. A bare leaf is followed by the
space before the next branch or by the closing parenthesis, and neither could be part of it; this
is what the induction over the tree carries along.

* `spells_print` — printing spells;
* `ofText_toText` — reading what is printed gives the tree back.
-/

namespace RelEngine.Tree

/-- **Printable trees**: the kind of every node that has branches is a bare word. -/
inductive Printable : Tree → Prop
  | node {kind : String} {branches : List Tree}
      (word : branches ≠ [] → kind ≠ "" ∧ ∀ c ∈ kind.toList, Bare c)
      (each : ∀ b ∈ branches, Printable b) : Printable (node kind branches)

theorem printable_leaf (text : String) : (leaf text).Printable := .node (absurd rfl) (by simp)

/-- Characters that end a bare word have no letter case. -/
theorem lowerAscii_of_isDelimiter {c : Char} (h : isDelimiter c = true) :
    Text.lowerAscii c = c := by
  have other : ¬ (c.val ≥ 'A'.val ∧ c.val ≤ 'Z'.val) := by
    rintro ⟨above, below⟩
    have above : 65 ≤ c.toNat := above
    have below : c.toNat ≤ 90 := below
    have marks : c ≠ '(' ∧ c ≠ ')' ∧ c ≠ '"' := by
      refine ⟨?_, ?_, ?_⟩
      all_goals
        rintro rfl
        exact absurd above (by decide)
    simp [isDelimiter, Text.isBlank, marks] at h
    omega
  exact dif_neg other

/-- **A node that spells a keyword has a bare word for its kind**, in whatever letter case. -/
theorem bare_of_is {t : Tree} {k : Keyword} (h : t.is k = true) :
    t.kind ≠ "" ∧ ∀ c ∈ t.kind.toList, Bare c := by
  have same : t.kind.toList.map Text.lowerAscii = k.text.toList.map Text.lowerAscii :=
    Text.sameLetters_iff.1 h
  have word : k.text.toList.map Text.lowerAscii ≠ [] ∧
      (k.text.toList.map Text.lowerAscii).all isBare = true := by
    cases k <;> decide
  rw [← same, List.all_eq_true] at word
  constructor
  · intro empty
    rw [empty] at word
    exact word.1 rfl
  · intro c member
    refine isBare_eq_true_iff.1 ?_
    cases delimiter : isDelimiter c with
    | false => rw [isBare, delimiter]; rfl
    | true =>
      -- the keyword would hold the delimiter as well
      have bare := word.2 _ (List.mem_map_of_mem member)
      rwa [lowerAscii_of_isDelimiter delimiter] at bare

/-- A keyword over printable branches makes a printable tree. -/
theorem printable_keyword (k : Keyword) {branches : List Tree}
    (each : ∀ b ∈ branches, Printable b) : (node k.text branches).Printable := by
  have spelled : (node k.text branches).is k = true := Text.sameLetters_self k.text
  exact .node (fun _ => bare_of_is spelled) each

theorem quotes_escape (text : List Char) : Quotes (escape text) text := by
  induction text with
  | nil => exact .nil
  | cons c text ih =>
    by_cases special : c = '\\' ∨ c = '"'
    · rw [escape, if_pos special]
      rcases special with rfl | rfl
      · exact .backslash ih
      · exact .quote ih
    · rw [escape, if_neg special]
      rw [not_or] at special
      exact .same ⟨special.2, special.1⟩ ih

theorem bare_of_not_needsQuotes {text : List Char} (h : needsQuotes text = false) :
    text ≠ [] ∧ ∀ c ∈ text, Bare c := by
  rw [needsQuotes, Bool.or_eq_false_iff, List.any_eq_false] at h
  refine ⟨by simpa using h.1, fun c hc => isBare_eq_true_iff.1 ?_⟩
  simpa [isBare] using h.2 c hc

/-- The printed form of a leaf is an atom, whatever the text. -/
theorem spellsAtom_word (text : List Char) {rest : List Char} (h : Bounds rest) :
    SpellsAtom (word text) text rest := by
  unfold word
  cases awkward : needsQuotes text with
  | true => exact .quoted (quotes_escape text)
  | false =>
    obtain ⟨nonempty, each⟩ := bare_of_not_needsQuotes awkward
    exact .bare nonempty each h

/-- Branches that are spelled by their printed forms are so one behind the other. -/
theorem spellsAll_printBranches {ts : List Tree}
    (each : ∀ t ∈ ts, ∀ rest, Bounds rest → Spells t.print t rest) {rest : List Char}
    (h : Bounds rest) : SpellsAll (printBranches ts) ts rest := by
  induction ts with
  | nil => exact .nil
  | cons t ts ih =>
    have more := ih fun t' ht' => each t' (List.mem_cons_of_mem _ ht')
    -- behind a branch stands the space before the next one, or what stands behind them all
    have bounds : Bounds (printBranches ts ++ rest) := by
      cases ts with
      | nil => exact h
      | cons t' ts => exact bounds_cons (by decide) _
    have gap : IsGap [' '] := by simp [IsGap]
    exact .cons gap (each t (by simp) _ bounds) more

/-- **Printing spells.** -/
theorem spells_print {t : Tree} (h : t.Printable) :
    ∀ rest, Bounds rest → Spells t.print t rest := by
  induction h with
  | @node kind branches bare _ each =>
    intro rest bounds
    cases branches with
    | nil =>
      have spelled := Spells.leaf (spellsAtom_word kind.toList bounds)
      rwa [String.ofList_toList] at spelled
    | cons b bs =>
      obtain ⟨nonempty, word⟩ := bare (List.cons_ne_nil b bs)
      have none : IsGap [] := by simp [IsGap]
      have branches := spellsAll_printBranches each (bounds_cons (c := ')') (by decide) rest)
      -- the kind ends at the space before the first branch
      have atom : SpellsAtom kind.toList kind.toList (printBranches (b :: bs) ++ ')' :: rest) :=
        .bare (by simpa using nonempty) word (bounds_cons (by decide) _)
      have spelled := Spells.node none atom branches none
      rw [String.ofList_toList] at spelled
      simpa [print] using spelled

/-- **Printed trees read back**: reading the printed form of a printable tree gives the tree. -/
theorem ofText_toText {t : Tree} (h : t.Printable) : ofText t.toText = .ok t := by
  rw [ofText, toText, String.toList_ofList]
  have spelled := spells_print h [] (by simp [Bounds])
  have none : IsGap [] := by simp [IsGap]
  exact read_of_spelledBy ⟨[], t.print, [], by simp, none, spelled, none⟩

/-- An empty leaf, one with both escaped characters and one with a line feed between
parentheses. -/
theorem ofText_toText_awkward :
    let t : Tree := .node "VALUES" [.leaf "", .leaf "say \"\\\"", .node "x" [.leaf "(\n)", .leaf "\\"]]
    t.Printable ∧ t.toText = "(VALUES \"\" \"say \\\"\\\\\\\"\" (x \"(\n)\" \\))" ∧
      ofText t.toText = .ok t := by
  intro t
  have leaf : ∀ text, Printable (Tree.leaf text) := fun text => .node (absurd rfl) (by simp)
  have inner : Printable (.node "x" [.leaf "(\n)", .leaf "\\"]) :=
    .node (fun _ => ⟨by decide, by simp [Bare, Text.isBlank]⟩) (by simp [leaf])
  have printable : t.Printable :=
    .node (fun _ => ⟨by decide, by simp [Bare, Text.isBlank]⟩) (by simp [leaf, inner])
  exact ⟨printable, by decide +kernel, ofText_toText printable⟩

end RelEngine.Tree
