import AppLauncher.Fault
import AppLauncher.Output.LineWatch

/-!
# Forwarding

Bytes are read piece by piece and written to a sink, which is flushed after every piece and shut down at the end
of the stream.  The first failure ends it all.  A watch gets every piece that was written and flushed; it has no
part in what is written.
-/

namespace AppLauncher.Output

/-- What happens at the two ends, in order. -/
inductive Event
  | read (size : Nat)
  | readFailed
  | wrote (size : Nat)
  | writeFailed
  | flushed
  | flushFailed
  | closed
  | closeFailed
  /-- What the watch has seen when the next piece is about to be read. -/
  | watched (seen : Bool)
  deriving DecidableEq, Repr

/-- What a read gives. -/
inductive Read
  | bytes (bs : List UInt8)
  | failed (f : Fault)
  deriving DecidableEq, Repr

/-- How many bytes a read asks for. -/
def readSize : Nat := 8192

/-- The bytes cut into pieces of `size`. -/
def pieces (size : Nat) (bs : List UInt8) : List (List UInt8) :=
  if _h : bs.length ≤ size ∨ size = 0 then [bs]
  else bs.take size :: pieces size (bs.drop size)
termination_by bs.length
decreasing_by simp only [List.length_drop]; omega

/-- The reads that bytes handed over at once take. -/
def Read.ofBytes (bs : List UInt8) : List Read := (pieces readSize bs).map .bytes

/-- The state of a sink after an operation, what happened, and the fault if it failed. -/
structure Attempt (σ : Type) where
  sink : σ
  events : List Event
  fault? : Option Fault

/-- A place that bytes are written to: how all of some bytes are written, how it is flushed and shut down. -/
structure Sink (σ : Type) where
  writeAll : List UInt8 → σ → Attempt σ
  flush : σ → Attempt σ
  close : σ → Attempt σ

/-- A forwarding: the sink, the watch, what happened so far, how many bytes went through, and how it ended if it is
over: with the number of bytes at the end of the stream, or with a fault. -/
structure Forwarding (σ : Type) where
  sink : σ
  watch : Option LineWatch := none
  events : List Event := []
  /-- A number of 64 bits, as long as the stream is no longer than these can count. -/
  total : Nat := 0
  result? : Option (Except Fault Nat) := none

namespace Forwarding

/-- What is noted about the watch before the next read. -/
def watchEvents : Option LineWatch → List Event
  | some w => [.watched w.seen]
  | none => []

/-- A forwarding that has ended with a fault. -/
def failed {σ : Type} (f : Forwarding σ) (sink : σ) (events : List Event) (fault : Fault) : Forwarding σ :=
  { f with sink, events := f.events ++ events, result? := some (.error fault) }

/-- The end of the stream: the sink is shut down. -/
def finish {σ : Type} (s : Sink σ) (f : Forwarding σ) : Forwarding σ :=
  let c := s.close f.sink
  match c.fault? with
  | some e => f.failed c.sink (.read 0 :: c.events) e
  | none => { f with sink := c.sink, events := f.events ++ .read 0 :: c.events, result? := some (.ok f.total) }

/-- Bytes that were read: they are written, the sink is flushed, and only then does the watch get them. -/
def pass {σ : Type} (s : Sink σ) (bs : List UInt8) (f : Forwarding σ) : Forwarding σ :=
  let w := s.writeAll bs f.sink
  let events := .read bs.length :: w.events
  match w.fault? with
  | some e => f.failed w.sink events e
  | none =>
    let l := s.flush w.sink
    let events := events ++ l.events
    match l.fault? with
    | some e => f.failed l.sink events e
    | none =>
      let watch := f.watch.map (·.feed bs)
      { f with
        sink := l.sink, watch, events := f.events ++ events ++ watchEvents watch
        total := f.total + bs.length }

/-- One read.  An empty piece is the end of the stream.  A forwarding that is over stays as it is. -/
def step {σ : Type} (s : Sink σ) (f : Forwarding σ) (r : Read) : Forwarding σ :=
  match f.result? with
  | some _ => f
  | none =>
    match r with
    | .failed e => f.failed f.sink [.readFailed] e
    | .bytes [] => f.finish s
    | .bytes (b :: bs) => f.pass s (b :: bs)

/-- Whether the forwarding is over. -/
def isOver {σ : Type} (f : Forwarding σ) : Bool := f.result?.isSome

/-- Whether the watch has seen its line; nothing is seen where nothing is watched. -/
def lineSeen {σ : Type} (f : Forwarding σ) : Bool := f.watch.any (·.seen)

end Forwarding

/-- Forwards what is read to a sink until the stream ends. -/
def forward {σ : Type} (s : Sink σ) (reads : List Read) (sink : σ) (watch : Option LineWatch) : Forwarding σ :=
  (reads ++ [Read.bytes []]).foldl (Forwarding.step s) { sink, watch }

end AppLauncher.Output
