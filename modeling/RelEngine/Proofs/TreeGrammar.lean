import Mathlib.Data.List.TakeWhile
import RelEngine.Tree.Reader

/-!
# The grammar of statement trees

What a text has to look like to spell a tree, said without a reader. A **spelling** is an atom, which
spells a leaf, or parentheses around an atom and any number of spellings, which spell a node.
Gaps may stand in front of each part and before the closing parenthesis.

Spellings are not a matter of the spelled text alone. A bare word is a *longest* run of bare
characters, so whether it is one depends on what stands behind it; otherwise `(k ab)` would have
a reading with the branches `a` and `b`. So the relation `Spells` carries the text that follows, down
to each part.

The reader answers exactly what the grammar allows. From the grammar to the reader the proof is by
induction on the spelling (`readTree_of_spells`), and all it needs at the end of a list of branches is
that no tree can be read there. In the other direction it is by induction on the length of the text
(`reader_induction`), since each reader hands a shorter text to the other one.

* `readTree_of_spells`, `exists_spells` — the two directions, with the rest behind the tree;
* `ofText_eq_ok_iff_spelledBy` — what texts are read, and as which tree.
-/

namespace RelEngine.Tree

/-! ### Spellings -/

/-- **Gaps**: any number of spaces, tabs, line feeds and carriage returns. -/
def IsGap (s : List Char) : Prop := ∀ c ∈ s, c ∈ [' ', '\t', '\n', '\r']

/-- **Bare characters**: neither white space nor a parenthesis nor a quote. -/
def Bare (c : Char) : Prop := Text.isBlank c = false ∧ c ≠ '(' ∧ c ≠ ')' ∧ c ≠ '"'

/-- What a bare word can end in front of: the end, or a character that could not be part of it. -/
def Bounds (rest : List Char) : Prop := ∀ c ∈ rest.head?, ¬ Bare c

/-- **The inside of a quoted atom** and the text it stands for. A quote and a backslash are written
behind a backslash, and every other character stands for itself. -/
inductive Quotes : List Char → List Char → Prop
  | nil : Quotes [] []
  | same {c : Char} {inside text : List Char} (other : c ≠ '"' ∧ c ≠ '\\')
      (more : Quotes inside text) : Quotes (c :: inside) (c :: text)
  | quote {inside text : List Char} (more : Quotes inside text) :
      Quotes ('\\' :: '"' :: inside) ('"' :: text)
  | backslash {inside text : List Char} (more : Quotes inside text) :
      Quotes ('\\' :: '\\' :: inside) ('\\' :: text)

/-- **Spellings of an atom**: how it is spelled, its text, and what stands behind it. A bare word
ends where no bare character follows. -/
inductive SpellsAtom : List Char → List Char → List Char → Prop
  | quoted {inside text rest : List Char} (h : Quotes inside text) :
      SpellsAtom ('"' :: (inside ++ ['"'])) text rest
  | bare {word rest : List Char} (nonempty : word ≠ []) (each : ∀ c ∈ word, Bare c)
      (longest : Bounds rest) : SpellsAtom word word rest

mutual

/-- **Spellings of a tree**: how it is spelled, the tree, and what stands behind it. -/
inductive Spells : List Char → Tree → List Char → Prop
  | leaf {word text rest : List Char} (atom : SpellsAtom word text rest) :
      Spells word (leaf (String.ofList text)) rest
  | node {gap word kind inside gap' rest : List Char} {branches : List Tree} (before : IsGap gap)
      (atom : SpellsAtom word kind (inside ++ (gap' ++ ')' :: rest)))
      (each : SpellsAll inside branches (gap' ++ ')' :: rest)) (behind : IsGap gap') :
      Spells ('(' :: (gap ++ (word ++ (inside ++ (gap' ++ [')'])))))
        (node (String.ofList kind) branches) rest

/-- **Spellings of branches**, one behind the other, each after a gap. -/
inductive SpellsAll : List Char → List Tree → List Char → Prop
  | nil {rest : List Char} : SpellsAll [] [] rest
  | cons {gap word others rest : List Char} {t : Tree} {ts : List Tree} (before : IsGap gap)
      (first : Spells word t (others ++ rest)) (more : SpellsAll others ts rest) :
      SpellsAll (gap ++ (word ++ others)) (t :: ts) rest

end

/-- **Texts that spell a tree**: a spelling of it between two gaps. -/
def SpelledBy (t : Tree) (s : List Char) : Prop :=
  ∃ gap word gap', s = gap ++ (word ++ gap') ∧ IsGap gap ∧ Spells word t gap' ∧ IsGap gap'

/-! ### Classes of characters -/

theorem isGap_eq_true_iff {c : Char} : Text.isGap c = true ↔ c ∈ [' ', '\t', '\n', '\r'] := by
  simp [Text.isGap, or_assoc]

theorem isBare_eq_true_iff {c : Char} : isBare c = true ↔ Bare c := by
  simp [isBare, isDelimiter, Bare, and_assoc]

theorem Bare.not_gap {c : Char} (h : Bare c) : Text.isGap c = false := by
  cases hc : Text.isGap c with
  | false => rfl
  | true =>
    -- a gap is white space, and a bare character is none
    have blank := Text.gap_isBlank hc
    rw [h.1] at blank
    cases blank

/-- A character that is not bare ends every word before it. -/
theorem bounds_cons {c : Char} (h : isBare c = false) (rest : List Char) : Bounds (c :: rest) := by
  intro d hd bare
  obtain rfl : c = d := Option.some.inj hd
  rw [isBare_eq_true_iff.2 bare] at h
  cases h

/-- A gap before a text is dropped with what the text begins with. -/
theorem dropGap_append {gap : List Char} (h : IsGap gap) (s : List Char) :
    Text.dropGap (gap ++ s) = Text.dropGap s :=
  List.dropWhile_append_of_pos fun c hc => isGap_eq_true_iff.2 (h c hc)

/-- Nothing is dropped before another character. -/
theorem dropGap_cons {c : Char} (h : Text.isGap c = false) (s : List Char) :
    Text.dropGap (c :: s) = c :: s :=
  List.dropWhile_cons_of_neg (by rw [h]; decide)

theorem dropGap_of_isGap {gap : List Char} (h : IsGap gap) : Text.dropGap gap = [] := by
  have dropped := dropGap_append h []
  rwa [List.append_nil] at dropped

/-- A text is a gap and what is left of it without its leading gap. -/
theorem exists_gap (s : List Char) : ∃ gap, IsGap gap ∧ s = gap ++ Text.dropGap s := by
  refine ⟨s.takeWhile Text.isGap, fun c hc => ?_, List.takeWhile_append_dropWhile.symm⟩
  exact isGap_eq_true_iff.1 (List.mem_takeWhile_imp hc)

/-! ### Atoms -/

/-- **Reading inside quotes** undoes every spelling of a text there. -/
theorem readQuoted_of_quotes {inside text : List Char} (h : Quotes inside text)
    (rest : List Char) : readQuoted (inside ++ '"' :: rest) = some (text, rest) := by
  -- on the spelling, whose cases are those of the reader
  induction h with
  | nil => rfl
  | @same c inside text other _ ih =>
    rw [List.cons_append, readQuoted, ih]
    · rfl
    -- neither of the two characters with a meaning of their own
    · exact other.1
    · exact fun c' rest' same => absurd same other.2
    · exact fun same => absurd same other.2
  | quote _ ih =>
    rw [List.cons_append, List.cons_append, readQuoted, if_pos (.inr rfl), ih]
    rfl
  | backslash _ ih =>
    rw [List.cons_append, List.cons_append, readQuoted, if_pos (.inl rfl), ih]
    rfl

/-- And what was read there is the text of a spelling. -/
theorem exists_quotes {s text rest : List Char} (h : readQuoted s = some (text, rest)) :
    ∃ inside, s = inside ++ '"' :: rest ∧ Quotes inside text := by
  -- along the recursion of the reader
  induction s using readQuoted.induct generalizing text with
  | case1 => cases h
  | case2 r =>
    obtain ⟨rfl, rfl⟩ := Prod.mk.inj (Option.some.inj h)
    exact ⟨[], rfl, .nil⟩
  | case3 c r special ih =>
    rw [readQuoted, if_pos special, Option.map_eq_some_iff] at h
    obtain ⟨p, read, same⟩ := h
    obtain ⟨rfl, rfl⟩ := Prod.mk.inj same
    obtain ⟨inside, rfl, quotes⟩ := ih read
    -- the character behind a backslash is one of two
    rcases special with rfl | rfl
    · exact ⟨_, rfl, .backslash quotes⟩
    · exact ⟨_, rfl, .quote quotes⟩
  | case4 c r plain =>
    rw [readQuoted, if_neg plain] at h
    cases h
  | case5 => cases h
  | case6 c r notQuote notEscape notLast ih =>
    rw [readQuoted, Option.map_eq_some_iff] at h
    · obtain ⟨p, read, same⟩ := h
      obtain ⟨rfl, rfl⟩ := Prod.mk.inj same
      obtain ⟨inside, rfl, quotes⟩ := ih read
      refine ⟨c :: inside, rfl, .same ⟨notQuote, ?_⟩ quotes⟩
      -- a backslash would have something behind it or nothing, and neither is left
      rintro rfl
      cases hr : inside ++ '"' :: p.2 with
      | nil => exact notLast rfl hr
      | cons c' r' => exact notEscape c' r' rfl hr
    all_goals assumption

/-- The spelling of an atom begins with a character that is no gap and no parenthesis. -/
theorem SpellsAtom.exists_cons {word text rest : List Char} (h : SpellsAtom word text rest) :
    ∃ c tail, word = c :: tail ∧ Text.isGap c = false ∧ c ≠ '(' ∧ c ≠ ')' := by
  cases h with
  | quoted h => exact ⟨'"', _, rfl, by decide, by decide, by decide⟩
  | bare nonempty each longest =>
    obtain ⟨c, tail, rfl⟩ := List.exists_cons_of_ne_nil nonempty
    have first := each c (by simp)
    exact ⟨c, tail, rfl, first.not_gap, first.2.1, first.2.2.1⟩

/-- Two lists with a boundary between them: all of the first belong to a class, and what comes next
does not. -/
theorem span_of_boundary {p : Char → Bool} {word rest : List Char} (each : ∀ c ∈ word, p c = true)
    (boundary : ∀ c ∈ rest.head?, p c = false) :
    (word ++ rest).takeWhile p = word ∧ (word ++ rest).dropWhile p = rest := by
  rw [List.takeWhile_append_of_pos each, List.dropWhile_append_of_pos each]
  cases rest with
  | nil => simp
  | cons c tail => simp [boundary c (by simp)]

/-- Every spelling of an atom is read as it. -/
theorem readAtom_of_spells {word text rest : List Char} (h : SpellsAtom word text rest) :
    readAtom (word ++ rest) = some (text, rest) := by
  cases h with
  | @quoted inside _ _ h =>
    rw [List.cons_append, List.append_assoc]
    exact readQuoted_of_quotes h rest
  | bare nonempty each longest =>
    -- the word ends where the run of bare characters does
    obtain ⟨taken, dropped⟩ := span_of_boundary
      (fun c hc => isBare_eq_true_iff.2 (each c hc))
      (fun c hc => Bool.eq_false_iff.2 fun bare => longest c hc (isBare_eq_true_iff.1 bare))
    obtain ⟨c, tail, rfl⟩ := List.exists_cons_of_ne_nil nonempty
    have notQuote : c ≠ '"' := (each c (by simp)).2.2.2
    unfold readAtom
    split
    · next opening => exact absurd (List.cons.inj opening).1 notQuote
    · rw [taken, dropped]

/-- What is read as an atom spells it. -/
theorem exists_spellsAtom {s text rest : List Char} (h : readAtom s = some (text, rest)) :
    ∃ word, s = word ++ rest ∧ SpellsAtom word text rest := by
  unfold readAtom at h
  split at h
  · next inside =>
    obtain ⟨inside, rfl, quotes⟩ := exists_quotes h
    exact ⟨'"' :: (inside ++ ['"']), by simp, .quoted quotes⟩
  · split at h
    · cases h
    · next c word taken =>
      obtain ⟨rfl, rfl⟩ := Prod.mk.inj (Option.some.inj h)
      have split := takeWhile_append_dropWhile_bare s
      rw [taken] at split
      refine ⟨c :: word, split.symm, .bare (List.cons_ne_nil _ _) (fun d hd => ?_) ?_⟩
      · rw [← taken] at hd
        exact isBare_eq_true_iff.1 (List.mem_takeWhile_imp hd)
      · intro d hd bare
        -- the run has ended before the rest, so this does not go on with a bare character
        have stops := List.head?_dropWhile_not isBare s
        rw [Option.mem_def.1 hd] at stops
        simp [isBare_eq_true_iff.2 bare] at stops

/-! ### The reader of trees by cases -/

/-- Behind an opening parenthesis stand a kind, branches and a closing parenthesis. -/
theorem readTree_of_open {s inside : List Char} (h : Text.dropGap s = '(' :: inside) :
    readTree s =
      match readAtom (Text.dropGap inside) with
      | none => none
      | some (kind, r) =>
        match Text.dropGap (readBranches r).2 with
        | ')' :: rest => some (node (String.ofList kind) (readBranches r).1, rest)
        | _ => none := by
  rw [readTree_eq, h]
  rfl

/-- A tree that opens no parenthesis is a leaf. -/
theorem readTree_of_not_open {s : List Char} (h : ∀ inside, Text.dropGap s ≠ '(' :: inside) :
    readTree s = (readAtom (Text.dropGap s)).map fun p => (leaf (String.ofList p.1), p.2) := by
  rw [readTree_eq]
  split
  · next inside opens => exact absurd opens (h inside)
  · rfl

/-- At the end of a list of branches there is no tree to be read. -/
theorem readTree_of_close {gap : List Char} (h : IsGap gap) (rest : List Char) :
    readTree (gap ++ ')' :: rest) = none := by
  have next : Text.dropGap (gap ++ ')' :: rest) = ')' :: rest := by
    rw [dropGap_append h, dropGap_cons (by decide)]
  rw [readTree_of_not_open (by rw [next]; simp), next]
  rfl

theorem readBranches_of_none {s : List Char} (h : readTree s = none) :
    readBranches s = ([], s) := by
  rw [readBranches_eq, h]

theorem readBranches_of_some {s rest : List Char} {t : Tree} (h : readTree s = some (t, rest)) :
    readBranches s = (t :: (readBranches rest).1, (readBranches rest).2) := by
  rw [readBranches_eq, h]

/-! ### What is spelled is read -/

mutual

/-- **What is spelled is read**, up to where the spelling ends. -/
theorem readTree_of_spells : ∀ {gap word rest : List Char} {t : Tree}, IsGap gap →
    Spells word t rest → readTree (gap ++ (word ++ rest)) = some (t, rest)
  | gap, _, rest, _, before, .leaf atom => by
    obtain ⟨c, tail, rfl, notGap, notOpen, -⟩ := atom.exists_cons
    have next : Text.dropGap (gap ++ (c :: tail ++ rest)) = c :: tail ++ rest := by
      rw [dropGap_append before, List.cons_append, dropGap_cons notGap]
    rw [readTree_of_not_open (by rw [next]; simp [notOpen]), next, readAtom_of_spells atom]
    rfl
  | gap, _, rest, _, before, @Spells.node inner _ _ inside gap' _ _ first atom each behind => by
    obtain ⟨c, tail, rfl, notGap, -, -⟩ := atom.exists_cons
    -- the text is an opening parenthesis, the kind, the branches and a closing parenthesis
    have next : Text.dropGap (gap ++ ('(' :: (inner ++ (c :: tail ++ (inside ++ (gap' ++ [')']))))
        ++ rest)) = '(' :: (inner ++ (c :: tail ++ (inside ++ (gap' ++ ')' :: rest)))) := by
      rw [dropGap_append before, List.cons_append, dropGap_cons (by decide)]
      simp
    have kindNext : Text.dropGap (inner ++ (c :: tail ++ (inside ++ (gap' ++ ')' :: rest))))
        = c :: tail ++ (inside ++ (gap' ++ ')' :: rest)) := by
      rw [dropGap_append first, List.cons_append, dropGap_cons notGap]
    have closes : Text.dropGap (gap' ++ ')' :: rest) = ')' :: rest := by
      rw [dropGap_append behind, dropGap_cons (by decide)]
    rw [readTree_of_open next, kindNext, readAtom_of_spells atom]
    dsimp only
    rw [readBranches_of_spells each (readTree_of_close behind rest), closes]
    rfl

/-- Branches are read up to where no further tree can be. -/
theorem readBranches_of_spells : ∀ {inside rest : List Char} {ts : List Tree},
    SpellsAll inside ts rest → readTree rest = none → readBranches (inside ++ rest) = (ts, rest)
  | _, _, _, .nil, stops => readBranches_of_none stops
  | _, _, _, .cons before first more, stops => by
    have here := readTree_of_spells before first
    have there := readBranches_of_spells more stops
    rw [List.append_assoc, List.append_assoc, readBranches_of_some here, there]

end

/-! ### What is read is spelled -/

/-- **Induction along the readers.** A tree is read from a text after branches have been read from a
shorter one, and branches after a tree has been read from the same text and branches from a shorter
one. -/
theorem reader_induction {P Q : List Char → Prop}
    (tree : ∀ s, (∀ r, r.length < s.length → Q r) → P s)
    (branches : ∀ s, P s → (∀ r, r.length < s.length → Q r) → Q s) (s : List Char) :
    P s ∧ Q s := by
  have all : ∀ n, ∀ s : List Char, s.length = n → Q s := by
    intro n
    induction n using Nat.strong_induction_on with
    | _ n ih =>
      rintro s rfl
      have shorter : ∀ r : List Char, r.length < s.length → Q r := fun r lt => ih _ lt r rfl
      exact branches s (tree s shorter) shorter
  exact ⟨tree s fun r _ => all _ r rfl, all _ s rfl⟩

/-- What the reader of trees answers is spelled in front of the rest. -/
def TreeSpelled (s : List Char) : Prop :=
  ∀ t rest, readTree s = some (t, rest) →
    ∃ gap word, s = gap ++ (word ++ rest) ∧ IsGap gap ∧ Spells word t rest

/-- What the reader of branches answers is spelled in front of the rest. -/
def BranchesSpelled (s : List Char) : Prop :=
  ∃ inside, s = inside ++ (readBranches s).2 ∧
    SpellsAll inside (readBranches s).1 (readBranches s).2

/-- One step of the reader at a tree, when it is right about all shorter texts. -/
theorem treeSpelled_of_shorter {s : List Char}
    (shorter : ∀ r, r.length < s.length → BranchesSpelled r) : TreeSpelled s := by
  intro t rest h
  obtain ⟨gap, isGap, split⟩ := exists_gap s
  -- a node if a parenthesis opens, and a leaf otherwise
  by_cases opens : ∃ inside, Text.dropGap s = '(' :: inside
  · obtain ⟨inside, opens⟩ := opens
    rw [readTree_of_open opens] at h
    cases kindRead : readAtom (Text.dropGap inside) with
    | none => rw [kindRead] at h; cases h
    | some p =>
      obtain ⟨kind, r⟩ := p
      rw [kindRead] at h
      dsimp only at h
      -- what is behind the kind is shorter than the text
      have lt : r.length < s.length := by
        have kindLt := readAtom_length_lt kindRead
        have gapLe := Text.dropGap_length_le inside
        have textLe := Text.dropGap_length_le s
        rw [opens, List.length_cons] at textLe
        omega
      obtain ⟨body, bodySplit, each⟩ := shorter r lt
      obtain ⟨inner, innerGap, innerSplit⟩ := exists_gap inside
      obtain ⟨gap', isGap', gapSplit⟩ := exists_gap (readBranches r).2
      obtain ⟨word, wordSplit, atom⟩ := exists_spellsAtom kindRead
      split at h
      · next rest' closes =>
        obtain ⟨rfl, rfl⟩ := Prod.mk.inj (Option.some.inj h)
        rw [closes] at gapSplit
        rw [gapSplit] at each
        -- the atom is told from what follows it, which is the branches and the end
        have kindSpelled : SpellsAtom word kind (body ++ (gap' ++ ')' :: rest')) := by
          rwa [← gapSplit, ← bodySplit]
        refine ⟨gap, _, ?_, isGap, .node innerGap kindSpelled each isGap'⟩
        rw [split, opens, innerSplit, wordSplit, bodySplit, gapSplit]
        simp
      · cases h
  · rw [readTree_of_not_open fun inside same => opens ⟨inside, same⟩, Option.map_eq_some_iff] at h
    obtain ⟨p, atomRead, same⟩ := h
    obtain ⟨rfl, rfl⟩ := Prod.mk.inj same
    obtain ⟨word, wordSplit, atom⟩ := exists_spellsAtom atomRead
    exact ⟨gap, word, by rw [split, wordSplit], isGap, .leaf atom⟩

/-- One step of the reader at branches, when it is right about the first tree and about all shorter
texts. -/
theorem branchesSpelled_of_shorter {s : List Char} (first : TreeSpelled s)
    (shorter : ∀ r, r.length < s.length → BranchesSpelled r) : BranchesSpelled s := by
  cases read : readTree s with
  | none =>
    rw [BranchesSpelled, readBranches_of_none read]
    exact ⟨[], rfl, .nil⟩
  | some p =>
    obtain ⟨t, r⟩ := p
    obtain ⟨gap, word, split, isGap, spelled⟩ := first t r read
    obtain ⟨others, othersSplit, more⟩ := shorter r (readTree_length_lt read)
    rw [BranchesSpelled, readBranches_of_some read]
    -- the first tree was read before the text of the others
    rw [othersSplit] at spelled
    refine ⟨gap ++ (word ++ others), ?_, .cons isGap spelled more⟩
    rw [split, List.append_assoc, List.append_assoc, ← othersSplit]

/-- **What is read is spelled**, after a gap and in front of the rest. -/
theorem exists_spells {s rest : List Char} {t : Tree} (h : readTree s = some (t, rest)) :
    ∃ gap word, s = gap ++ (word ++ rest) ∧ IsGap gap ∧ Spells word t rest :=
  (reader_induction (fun _ => treeSpelled_of_shorter)
    (fun _ => branchesSpelled_of_shorter) s).1 t rest h

/-! ### Whole texts -/

/-- A spelled text is read as its tree, up to the end. -/
theorem read_of_spelledBy {t : Tree} {s : List Char} (h : t.SpelledBy s) : read s = .ok t := by
  obtain ⟨gap, word, gap', rfl, isGap, spelled, isGap'⟩ := h
  rw [read, readTree_of_spells isGap spelled]
  dsimp only
  rw [dropGap_of_isGap isGap']

/-- A text that was read up to the end spells the tree. -/
theorem spelledBy_of_read {t : Tree} {s : List Char} (h : read s = .ok t) : t.SpelledBy s := by
  unfold read at h
  split at h
  · cases h
  · next t' rest treeRead =>
    split at h
    · next ends =>
      cases h
      obtain ⟨gap, word, split, isGap, spelled⟩ := exists_spells treeRead
      obtain ⟨gap', isGap', restSplit⟩ := exists_gap rest
      -- what is left behind the tree is nothing but a gap
      rw [ends, List.append_nil] at restSplit
      subst restSplit
      exact ⟨gap, word, rest, split, isGap, spelled, isGap'⟩
    · cases h

/-- **The reader accepts exactly the grammar.** A text is read as a tree exactly when it spells that
tree, and it spells one tree at most. -/
theorem ofText_eq_ok_iff_spelledBy (s : String) :
    (∀ t, ofText s = .ok t ↔ t.SpelledBy s.toList) ∧
      ∀ t t' : Tree, t.SpelledBy s.toList → t'.SpelledBy s.toList → t = t' := by
  refine ⟨fun t => ⟨spelledBy_of_read, read_of_spelledBy⟩, fun t t' h h' => ?_⟩
  have once := read_of_spelledBy h
  rw [read_of_spelledBy h'] at once
  exact (Except.ok.inj once).symm

end RelEngine.Tree
