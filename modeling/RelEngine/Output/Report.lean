import RelEngine.Decimal.Shortest
import RelEngine.Storage.Disk

/-!
# Cost reports

Every statement is followed by a report of what it cost: the milliseconds that passed, the simulated
milliseconds on the disk, and the blocks transferred. A blank line ends the report.
-/

namespace RelEngine

/-- **The cost of one statement.** -/
structure Cost where
  /-- Milliseconds that passed. -/
  elapsed : Nat
  /-- What the disk counters went up by. -/
  disk : Reading

namespace Cost

/-- Times are written positionally from a ten-thousandth up to sixteen digits, and with an exponent
outside that range. -/
def milliseconds : Decimal.Layout := ⟨-4, 16, "inf", "NaN"⟩

/-- The lines of a report. -/
def lines (c : Cost) : List String :=
  ["Computer elapse time = " ++ toString c.elapsed ++ " ms",
    "Calculated elapse time = " ++ milliseconds.write c.disk.time ++ " ms",
    "Calculated Disk I/Os = " ++ toString c.disk.ios,
    ""]

end Cost

end RelEngine
