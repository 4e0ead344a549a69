import AppLauncher.Server.Outcome

/-!
# Supervision of the server's process

A watcher waits for the process, and the handle that the launcher holds asks it to kill the process.  The watcher
first notes the time of the end and then makes the outcome known, once and for all.  The machine goes from state to
state by events that may come in any order; an event that cannot happen in a state leads nowhere.
-/

namespace AppLauncher.Server

/-- The process: it runs, or it has ended and left a status. -/
inductive Child
  | running
  | ended (status : Status)
  deriving DecidableEq, Repr

/-- The watcher: it waits, it has killed the process and waits, it has made an outcome of what waiting gave, it has
noted the time, it has made the outcome known, or it is gone before that. -/
inductive Watcher
  | waiting
  | killing
  | reaped (o : Outcome)
  | recorded (o : Outcome)
  | finished
  | gone
  deriving DecidableEq, Repr

/-- The state of a supervision. -/
structure Supervision where
  clock : Nat
  startedAt : Nat
  child : Child := .running
  watcher : Watcher := .waiting
  /-- Whether the handle can still send its only request to kill. -/
  canRequest : Bool := true
  /-- Whether a request was sent. -/
  requested : Bool := false
  /-- How often the process was killed. -/
  kills : Nat := 0
  /-- How often somebody asked for a stop. -/
  stops : Nat := 0
  exitedAt : Option Nat := none
  exit : Option Outcome := none
  deriving DecidableEq, Repr

/-- What can happen to a supervision. -/
inductive Event
  | tick (millis : Nat)
  /-- The process ends of itself, or by a signal from elsewhere. -/
  | childEnds (status : Status)
  | stopAsked
  | handleDropped
  | watcherKills
  /-- The watcher gets the status that the process has left. -/
  | watcherReaps
  /-- Waiting for a process that has ended fails, and its status is lost. -/
  | waitFails (f : Fault)
  | watcherRecords
  | watcherPublishes
  /-- Whatever runs in the background is dropped. -/
  | backgroundDropped
  deriving DecidableEq, Repr

namespace Supervision

/-- The supervision of a process that was just started. -/
def start (clock : Nat) : Supervision := { clock, startedAt := clock }

/-- The watcher has waited for the process until it ended, with a result. -/
def waited? (s : Supervision) (result : Status → Except Fault Status) : Option Supervision :=
  match s.watcher, s.child with
  | .waiting, .ended status => some { s with watcher := .reaped (.ofWait (result status)) }
  | .killing, .ended status => some { s with watcher := .reaped (.ofWait (result status)) }
  | _, _ => none

/-- The state after an event, if the event can happen. -/
def step? (s : Supervision) : Event → Option Supervision
  | .tick n => some { s with clock := s.clock + n }
  | .childEnds status =>
    match s.child with
    | .running => some { s with child := .ended status }
    | .ended _ => none
  | .stopAsked =>
    some { s with stops := s.stops + 1, canRequest := false, requested := s.requested || s.canRequest }
  | .handleDropped => some { s with canRequest := false }
  | .watcherKills =>
    match s.watcher, s.requested with
    | .waiting, true =>
      let child := match s.child with
        | .running => .ended .killed
        | .ended status => .ended status
      some { s with child, watcher := .killing, kills := s.kills + 1 }
    | _, _ => none
  | .watcherReaps => s.waited? .ok
  | .waitFails f => s.waited? fun _ => .error f
  | .watcherRecords =>
    match s.watcher with
    | .reaped o => some { s with watcher := .recorded o, exitedAt := some s.clock }
    | _ => none
  | .watcherPublishes =>
    match s.watcher with
    | .recorded o => some { s with watcher := .finished, exit := some o }
    | _ => none
  | .backgroundDropped =>
    match s.watcher with
    | .finished => some s
    | _ => some { s with watcher := .gone }

/-- The state after an event; one that cannot happen changes nothing. -/
def step (s : Supervision) (e : Event) : Supervision := (s.step? e).getD s

/-- The state after events. -/
def run (s : Supervision) (es : List Event) : Supervision := es.foldl step s

/-- What those who wait for the end get: the outcome once it is known, or that nobody watches any more.  Until then
they wait. -/
def awaited? (s : Supervision) : Option Outcome :=
  match s.exit with
  | some o => some o
  | none => if s.watcher = .gone then some .unwatched else none

/-- How long the process has run, or ran until its end was noted, in milliseconds.  The clock is taken to go forward
only, so the end is never before the start. -/
def uptime (s : Supervision) : Nat := s.exitedAt.getD s.clock - s.startedAt

/-- Whether the next stop is announced. -/
def announcesStop (s : Supervision) : Bool := s.canRequest && s.exit.isNone

/-- The watcher goes on by itself as far as it can. -/
def settle (s : Supervision) : Supervision :=
  s.run [.watcherKills, .watcherReaps, .watcherRecords, .watcherPublishes]

end Supervision

end AppLauncher.Server
