/-!
# Main memory

Memory is a number of block frames, never fewer than two: while a nested loop runs, one frame is
kept for the inner table and the others hold a part of the outer one.
-/

namespace RelEngine

/-- **Main memory**: how many block frames there are. -/
structure Memory where
  frames : Nat
  two_le_frames : 2 ≤ frames
deriving DecidableEq, Repr

namespace Memory

/-- Memory with this many frames, or with two if that is more. -/
def ofFrames (frames : Nat) : Memory := ⟨max 2 frames, Nat.le_max_left ..⟩

/-- The frames that hold a part of the outer table. -/
def outerFrames (m : Memory) : Nat := m.frames - 1

/-- A frame for the outer table is always left. -/
theorem outerFrames_pos (m : Memory) : 0 < m.outerFrames := by
  have := m.two_le_frames
  unfold outerFrames; omega

/-- **How often the inner table is read** while the outer one passes through memory: once for each
load of the outer table, and at least once. -/
def passes (m : Memory) (outerBlocks : Nat) : Nat :=
  max 1 ((outerBlocks + m.outerFrames - 1) / m.outerFrames)

end Memory

end RelEngine
