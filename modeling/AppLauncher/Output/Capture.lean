import AppLauncher.Output.Forward

/-!
# Captured output

A sink that keeps all bytes as long as somebody is there to receive them.
-/

namespace AppLauncher.Output

/-- A captured stream: whether its receiver is there, and the bytes that were not taken yet. -/
structure Capture where
  received : Bool := true
  unread : List UInt8 := []
  deriving DecidableEq, Repr

namespace Capture

/-- The fault of a write that nobody receives. -/
def abandoned : Fault := .plain .brokenPipe

/-- The bytes are kept if there is a receiver. -/
def writeAll (bs : List UInt8) (c : Capture) : Attempt Capture :=
  if c.received then ⟨{ c with unread := c.unread ++ bs }, [.wrote bs.length], none⟩
  else ⟨c, [.writeFailed], some abandoned⟩

/-- The operations of a captured stream. -/
def operations : Sink Capture := ⟨writeAll, fun c => ⟨c, [.flushed], none⟩, fun c => ⟨c, [.closed], none⟩⟩

/-- The stream after its receiver has gone. -/
def abandon (c : Capture) : Capture := { c with received := false, unread := [] }

/-- The stream after all its bytes were taken. -/
def drained (c : Capture) : Capture := { c with unread := [] }

end Capture

end AppLauncher.Output
