import AppLauncher.Server.Outcome

/-!
# The behaviour of a process

What a process does as far as it can be seen from outside, with the time of each action in milliseconds since the
process began, and when it ends of itself and with which status.
-/

namespace AppLauncher.Program

/-- One of the two streams that a process writes. -/
inductive Stream
  | stdout
  | stderr
  deriving DecidableEq, Repr

/-- An action that can be seen from outside. -/
inductive Action
  /-- Bytes are written; if the process writes them itself, a broken pipe ends it. -/
  | write (stream : Stream) (bytes : List UInt8) (itself : Bool)
  /-- A stream is closed by all who could write to it. -/
  | close (stream : Stream)
  /-- From now on a broken pipe only makes writes fail. -/
  | ignoreBrokenPipe
  /-- The launcher is sent a signal. -/
  | signalParent (number : Nat)
  deriving DecidableEq, Repr

/-- An action with its time.  The action of a process that was left behind goes on when its parent is killed. -/
structure Event where
  time : Nat
  action : Action
  leftBehind : Bool := false
  deriving DecidableEq, Repr

/-- The behaviour of a process: its actions in the order of time, when it ends of itself and with which status, if it
does, and how long processes that it left behind hold its streams. -/
structure Behaviour where
  events : List Event
  ending : Option (Nat × Server.Status)
  heldUntil : Nat := 0
  deriving DecidableEq, Repr

end AppLauncher.Program
