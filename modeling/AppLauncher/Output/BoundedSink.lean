import AppLauncher.Output.Forward

/-!
# A bounded sink

A sink with limits: how many bytes a write takes, how many it takes in all, which flush fails, and whether it can
be shut down.
-/

namespace AppLauncher.Output

/-- A sink with its limits, the bytes that it has taken and how often it was flushed. -/
structure BoundedSink where
  maxWrite : Option Nat := none
  capacity : Option Nat := none
  /-- The fault of a write beyond the capacity; without one such a write takes no bytes. -/
  full : Option Fault := none
  failingFlush : Option Nat := none
  failingClose : Bool := false
  received : List UInt8 := []
  flushes : Nat := 0
  deriving Repr

namespace BoundedSink

/-- How many of `n` bytes the next write takes. -/
def room (s : BoundedSink) (n : Nat) : Nat :=
  let n := match s.maxWrite with
    | some m => min n m
    | none => n
  match s.capacity with
  | some c => min n (c - s.received.length)
  | none => n

/-- Whether no more bytes are taken. -/
def isFull (s : BoundedSink) : Bool :=
  match s.capacity with
  | some c => decide (c ≤ s.received.length)
  | none => false

/-- The fault of a write that took none of the bytes it was given. -/
def stuck : Fault := .custom .writeZero "failed to write whole buffer"

/-- Writes until nothing is left; every write but a failing one takes at least one byte. -/
def writeAll (bs : List UInt8) (s : BoundedSink) : Attempt BoundedSink :=
  if _h0 : bs.length = 0 then ⟨s, [], none⟩
  else
    match s.isFull, s.full with
    | true, some f => ⟨s, [.writeFailed], some f⟩
    | _, _ =>
      let n := s.room bs.length
      if _h : n = 0 then ⟨s, [.wrote 0], some stuck⟩
      else
        let rest := writeAll (bs.drop n) { s with received := s.received ++ bs.take n }
        ⟨rest.sink, .wrote (min n bs.length) :: rest.events, rest.fault?⟩
termination_by bs.length
decreasing_by simp only [List.length_drop]; omega

/-- The sink after a flush. -/
def flush (s : BoundedSink) : Attempt BoundedSink :=
  let s := { s with flushes := s.flushes + 1 }
  if s.failingFlush = some s.flushes then ⟨s, [.flushFailed], some (.plain .brokenPipe)⟩
  else ⟨s, [.flushed], none⟩

/-- The sink after it was shut down. -/
def close (s : BoundedSink) : Attempt BoundedSink :=
  if s.failingClose then ⟨s, [.closeFailed], some (.plain .brokenPipe)⟩ else ⟨s, [.closed], none⟩

/-- The operations of a bounded sink. -/
def operations : Sink BoundedSink := ⟨writeAll, flush, close⟩

end BoundedSink

end AppLauncher.Output
