/-!
# The disk and its cost

Data lives in the catalog; the disk only keeps score. Every transfer of blocks, in either direction,
adds to two counters: the number of blocks, and the time, at a fixed latency per block.

`Reading` is what the counters show at one moment, and `Reading.since` what has been added between
two moments.
-/

namespace RelEngine

/-- The larger of a number and zero; zero also for what is no number. -/
def atLeastZero (x : Float) : Float := if x > 0.0 then x else 0.0

/-- **What the counters show**: blocks transferred and milliseconds spent on them. -/
structure Reading where
  ios : Nat
  time : Float

/-- What has been added since an earlier reading. -/
def Reading.since (now earlier : Reading) : Reading :=
  ⟨now.ios - earlier.ios, atLeastZero (now.time - earlier.time)⟩

/-- **A disk**: milliseconds per block, and the counters. -/
structure Disk where
  latency : Float
  counters : Reading

namespace Disk

/-- An unused disk. A latency below zero, or none at all, counts as zero. -/
def ofLatency (latency : Float) : Disk := ⟨atLeastZero latency, ⟨0, 0.0⟩⟩

/-- The disk after a transfer of blocks. -/
def transfer (d : Disk) (blocks : Nat) : Disk :=
  { d with counters :=
      ⟨d.counters.ios + blocks, d.counters.time + blocks.toFloat * d.latency⟩ }

@[simp] theorem latency_transfer (d : Disk) (n : Nat) : (d.transfer n).latency = d.latency := rfl

@[simp] theorem ios_transfer (d : Disk) (n : Nat) :
    (d.transfer n).counters.ios = d.counters.ios + n := rfl

end Disk

end RelEngine
