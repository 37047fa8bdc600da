import RelEngine.Decimal.Reader
import RelEngine.Text.Blank

/-!
# Settings

Four settings steer the engine, each read from a variable of its own. A variable that is absent,
does not read as a value of its kind, or lies outside the range of the setting leaves the default in
place. White space around a value does not matter.
-/

namespace RelEngine

/-- **What becomes of a text longer than its cell.** -/
inductive Overflow where
  /-- The cell widens to hold the text. -/
  | grow
  /-- The text is cut to the width of the cell. -/
  | truncate
deriving DecidableEq, Repr

/-- The name of a policy. -/
def Overflow.name : Overflow → String
  | grow => "grow"
  | truncate => "truncate"

/-- The policy of a name, in any letter case. -/
def Overflow.ofName? (s : String) : Option Overflow :=
  if Text.sameLetters s grow.name then some grow
  else if Text.sameLetters s truncate.name then some truncate
  else none

/-- **Settings of the engine.** -/
structure Settings where
  /-- The least width of a printed cell, in characters. -/
  cellWidth : Nat
  overflow : Overflow
  /-- Block frames of main memory. -/
  memoryBlocks : Nat
  /-- Milliseconds for each block transferred. -/
  diskLatency : Float

namespace Settings

/-- The settings without any variable. -/
def standard : Settings := ⟨18, .grow, 10, 10.0⟩

/-- The variable that sets the cell width. -/
def cellWidthVariable : String := "SIMDB_CELL_WIDTH"

/-- The variable that sets the overflow policy. -/
def overflowVariable : String := "SIMDB_CELL_OVERFLOW"

/-- The variable that sets the number of block frames. -/
def memoryBlocksVariable : String := "SIMDB_MEMORY_BLOCKS"

/-- The variable that sets the latency of the disk. -/
def diskLatencyVariable : String := "SIMDB_DISK_LATENCY"

/-- All variables that are looked at. -/
def variableNames : List String :=
  [cellWidthVariable, overflowVariable, memoryBlocksVariable, diskLatencyVariable]

/-- A cell has at least one character. -/
def readCellWidth (s : String) : Option Nat := (Decimal.readCount s).filter (0 < ·)

/-- Memory has at least two frames. -/
def readMemoryBlocks (s : String) : Option Nat := (Decimal.readCount s).filter (2 ≤ ·)

/-- A latency is finite and not below zero. -/
def readDiskLatency (s : String) : Option Float :=
  (Decimal.readFloat s).filter fun x => x.isFinite && x ≥ 0.0

/-- **The settings that a collection of variables asks for.** -/
def ofVariables (lookup : String → Option String) : Settings :=
  let value (name : String) := (lookup name).map Text.trimmed
  { cellWidth := ((value cellWidthVariable).bind readCellWidth).getD standard.cellWidth
    overflow := ((value overflowVariable).bind Overflow.ofName?).getD standard.overflow
    memoryBlocks :=
      ((value memoryBlocksVariable).bind readMemoryBlocks).getD standard.memoryBlocks
    diskLatency := ((value diskLatencyVariable).bind readDiskLatency).getD standard.diskLatency }

end Settings

end RelEngine
