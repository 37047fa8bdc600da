import RelEngine.Tree.Printer

/-!
# Reading statement trees

A tree is spelled as an **atom** — a leaf — or as `(` atom tree … `)`. Gap characters may stand
between these parts, and neighbours need none. An atom is either quoted, `"…"` with `\"` and `\\` as
its only escapes, or the longest run of characters that are no delimiters. White space outside the
four gap characters is neither a gap nor part of a bare word.

Every reader takes the text from where it stands and answers what it found with the rest behind it,
or `none`; the rest is a shorter text, which is why reading ends.

A text that is not one tree is refused for one of two reasons (`ReadFault`): a tree was read and
something stands behind it, or no tree could be read from the start.

* `readTree_eq`, `readBranches_eq` — what the two readers of trees do;
* `readTree_length_lt` — the rest behind a tree is shorter.
-/

namespace RelEngine.Tree

/-- The inside of a quoted atom and the text behind its closing quote. -/
def readQuoted : List Char → Option (List Char × List Char)
  | [] => none
  | '"' :: rest => some ([], rest)
  | '\\' :: c :: rest =>
    if c = '\\' ∨ c = '"' then (readQuoted rest).map fun p => (c :: p.1, p.2) else none
  | '\\' :: [] => none
  | c :: rest => (readQuoted rest).map fun p => (c :: p.1, p.2)

/-- Characters of a bare word. -/
def isBare (c : Char) : Bool := !isDelimiter c

/-- An atom: a quoted one, or a non-empty bare word. -/
def readAtom (s : List Char) : Option (List Char × List Char) :=
  match s with
  | '"' :: rest => readQuoted rest
  | s =>
    match s.takeWhile isBare with
    | [] => none
    | c :: word => some (c :: word, s.dropWhile isBare)

/-- A text is its leading bare word followed by the rest. -/
theorem takeWhile_append_dropWhile_bare (s : List Char) :
    s.takeWhile isBare ++ s.dropWhile isBare = s :=
  List.takeWhile_append_dropWhile

/-- The rest behind a quoted atom is shorter than the text it was read from. -/
theorem readQuoted_length_lt {s text rest : List Char} (h : readQuoted s = some (text, rest)) :
    rest.length < s.length := by
  -- along the cases of the reader: the end, the closing quote, the escapes and any other character
  induction s using readQuoted.induct generalizing text with
  | case1 => simp [readQuoted] at h
  | case2 r => simp [readQuoted] at h; simp [h.2]
  | case3 c r hc ih =>
    simp only [readQuoted, if_pos hc, Option.map_eq_some_iff] at h
    obtain ⟨p, hp, he⟩ := h
    obtain ⟨-, rfl⟩ := Prod.mk.inj he
    have := ih hp
    simp; omega
  | case4 c r hc => simp [readQuoted, hc] at h
  | case5 => simp [readQuoted] at h
  | case6 c r h1 h2 h3 ih =>
    rw [readQuoted, Option.map_eq_some_iff] at h
    · obtain ⟨p, hp, he⟩ := h
      obtain ⟨-, rfl⟩ := Prod.mk.inj he
      have := ih hp
      simp; omega
    all_goals assumption

/-- An atom takes at least one character. -/
theorem readAtom_length_lt {s text rest : List Char} (h : readAtom s = some (text, rest)) :
    rest.length < s.length := by
  unfold readAtom at h
  split at h
  · have := readQuoted_length_lt h
    simp; omega
  · have hl := congrArg List.length (takeWhile_append_dropWhile_bare s)
    rw [List.length_append] at hl
    split at h
    · cases h
    · next c word hw =>
      cases h
      rw [hw] at hl
      simp at hl; omega

/-! ### Trees

The two readers below call each other. So that this can be seen to end, they hand the rest on with a
proof that it is shorter; `readTree` and `readBranches` are the same readers without the proofs, and
`readTree_eq` and `readBranches_eq` say what they do. -/

mutual

/-- Reads a tree after the gap before it, and keeps the proof that the rest is shorter. -/
def scanTree (s : List Char) : Option (Tree × { r : List Char // r.length < s.length }) :=
  match hs : Text.dropGap s with
  | '(' :: inside =>
    match hk : readAtom (Text.dropGap inside) with
    | none => none
    | some (kind, afterKind) =>
      have hkind : afterKind.length + 1 < s.length := by
        have h1 := readAtom_length_lt hk
        have h2 := Text.dropGap_length_le inside
        have h3 := Text.dropGap_length_le s
        rw [hs] at h3; simp at h3; omega
      match scanBranches afterKind with
      | (branches, ⟨afterBranches, hb⟩) =>
        match hc : Text.dropGap afterBranches with
        | ')' :: rest =>
          some (node (String.ofList kind) branches, ⟨rest, by
            have h1 := Text.dropGap_length_le afterBranches
            rw [hc] at h1; simp at h1; omega⟩)
        | _ => none
  | text =>
    match ha : readAtom text with
    | none => none
    | some (word, rest) =>
      some (leaf (String.ofList word), ⟨rest, by
        have h1 := readAtom_length_lt ha
        have h2 := Text.dropGap_length_le s
        rw [hs] at h2; omega⟩)
termination_by s.length

/-- Reads as many trees as stand one after the other. -/
def scanBranches (s : List Char) : List Tree × { r : List Char // r.length ≤ s.length } :=
  match scanTree s with
  | none => ([], ⟨s, Nat.le_refl _⟩)
  | some (t, ⟨r, hr⟩) =>
    match scanBranches r with
    | (ts, ⟨rest, h⟩) => (t :: ts, ⟨rest, by omega⟩)
termination_by s.length + 1

end

/-- **A tree and the rest behind it**, read after the gap before it. -/
def readTree (s : List Char) : Option (Tree × List Char) :=
  (scanTree s).map fun p => (p.1, p.2.1)

/-- **As many trees as stand one after the other**, and the rest behind them. -/
def readBranches (s : List Char) : List Tree × List Char :=
  ((scanBranches s).1, (scanBranches s).2.1)

/-- The rest behind a tree is shorter. -/
theorem readTree_length_lt {s rest : List Char} {t : Tree} (h : readTree s = some (t, rest)) :
    rest.length < s.length := by
  obtain ⟨p, -, he⟩ := Option.map_eq_some_iff.1 h
  obtain ⟨-, rfl⟩ := Prod.mk.inj he
  exact p.2.2

/-- The rest behind branches is no longer than the text they were read from. -/
theorem readBranches_length_le (s : List Char) : (readBranches s).2.length ≤ s.length :=
  (scanBranches s).2.2

/-- After a gap, a parenthesis begins a node and anything else has to be an atom. -/
theorem readTree_eq (s : List Char) :
    readTree s =
      match Text.dropGap s with
      | '(' :: inside =>
        match readAtom (Text.dropGap inside) with
        | none => none
        | some (kind, r) =>
          match Text.dropGap (readBranches r).2 with
          | ')' :: rest => some (node (String.ofList kind) (readBranches r).1, rest)
          | _ => none
      | text => (readAtom text).map fun p => (leaf (String.ofList p.1), p.2) := by
  unfold readTree
  rw [scanTree]
  -- a parenthesis opens a node, and everything else is an atom
  split
  · next inside hs =>
    simp only [hs]
    split
    · next hk => simp only [hk]; rfl
    · next kind r hk =>
      simp only [hk, readBranches]
      split
      · next rest hc => simp only [hc]; rfl
      · next hc =>
        split
        · next rest hc' => exact absurd hc' (hc _)
        · rfl
  · next hs =>
    split
    · next ha =>
      split
      · next inside hs' => exact absurd hs' (hs _)
      · simp only [ha]; rfl
    · next word rest ha =>
      split
      · next inside hs' => exact absurd hs' (hs _)
      · simp only [ha]; rfl

/-- Branches are read until no further tree can be. -/
theorem readBranches_eq (s : List Char) :
    readBranches s =
      match readTree s with
      | none => ([], s)
      | some (t, r) => (t :: (readBranches r).1, (readBranches r).2) := by
  unfold readBranches readTree
  rw [scanBranches]
  cases scanTree s with
  | none => rfl
  | some p => rfl

/-! ### Whole texts -/

/-- **Why a text is not one tree.** -/
inductive ReadFault where
  /-- A tree was read, and this stands behind it and the gap after it. -/
  | trailing (rest : List Char)
  /-- No tree could be read; this is the whole text without the gap before it. -/
  | unreadable (text : List Char)
deriving DecidableEq, Repr

/-- The one tree that a text spells, with gaps before and behind it. -/
def read (s : List Char) : Except ReadFault Tree :=
  match readTree s with
  | none => .error (.unreadable (Text.dropGap s))
  | some (t, rest) =>
    match Text.dropGap rest with
    | [] => .ok t
    | c :: cs => .error (.trailing (c :: cs))

/-- `read` on strings. -/
def ofText (s : String) : Except ReadFault Tree := read s.toList

end RelEngine.Tree
