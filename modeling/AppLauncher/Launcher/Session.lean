import AppLauncher.Launcher.Call

/-!
# A launcher at work

A launcher on a disk, with one call after another.  Background work goes on only while a call waits: first the
cleanups that were begun, then whatever happens next to a server, and time passes from one to the next.
-/

namespace AppLauncher.Launcher

open AppLauncher.Server AppLauncher.Program

/-- A launcher with its surroundings. -/
structure Session where
  launcher : State
  world : World
  /-- Servers that gave way to a later one; they go on. -/
  former : List Running := []
  /-- How many cleanups are still to run whose result nobody can ask for any more. -/
  abandoned : Nat := 0

namespace Session

/-- A launcher that has done nothing yet. -/
def new (config : Config) (world : World) : Session := { launcher := { config }, world }

/-- Whether a cleanup is still to run. -/
def hasCleanup (s : Session) : Bool :=
  decide (0 < s.abandoned) || s.launcher.cleanup.any (·.isPending)

/-- The next cleanup runs. -/
def runCleanup (s : Session) : Session :=
  let c := Cache.clear s.launcher.config.cache s.world.disk
  let s := { s with world := { s.world with disk := c.state }, launcher := s.launcher.say c.log }
  if 0 < s.abandoned then { s with abandoned := s.abandoned - 1 }
  else
    let cleanup := s.launcher.cleanup.map fun (k : Cleanup) => { k with stage := .finished c.result }
    { s with launcher := { s.launcher with cleanup } }

/-- All servers that go on. -/
def servers (s : Session) : List Running := s.former ++ s.launcher.server.toList

/-- The next time at which something happens by itself. -/
def next? (s : Session) : Option Nat :=
  if s.hasCleanup then some s.launcher.clock else earliest (s.servers.map (·.next?))

/-- The servers at a later time. -/
def advanceServers (s : Session) (time : Nat) : Session :=
  let time := max time s.launcher.clock
  let former := s.former.map (·.advance time)
  let (server, lines) := match s.launcher.server with
    | some r =>
      let (r, lines) := r.advance time
      (some r, lines)
    | none => (none, [])
  let log := s.launcher.log ++ former.flatMap (·.2) ++ lines
  { s with former := former.map (·.1), launcher := { s.launcher with clock := time, server, log } }

/-- Background work goes on until a time. -/
def happen (s : Session) (time : Nat) : Session :=
  if s.hasCleanup then s.runCleanup else s.advanceServers time

/-- How many things can still happen by themselves. -/
def remaining (s : Session) : Nat := s.abandoned + 1 + (s.servers.map (·.remaining)).foldl (· + ·) 0

private def waitLoop (done : Session → Bool) : Nat → Session → Session
  | 0, s => s
  | n + 1, s =>
    if done s then s
    else
      match s.next? with
      | some t => waitLoop done n (s.happen t)
      | none => s

/-- Background work goes on until something holds, or nothing more happens. -/
def wait (s : Session) (done : Session → Bool) : Session := waitLoop done (s.remaining + 1) s

/-- Background work goes on for some milliseconds. -/
def sleep (s : Session) (millis : Nat) : Session :=
  let time := s.launcher.clock + millis
  let rec clean : Nat → Session → Session
    | 0, s => s
    | n + 1, s => if s.hasCleanup then clean n s.runCleanup else s
  (clean (s.abandoned + 1) s).advanceServers time

/-- A call goes on by at most so many steps of its own and of the background. -/
def callLoop (hold : Session → Bool) : Nat → Session → Call → Session × Call
  | 0, s, c => (s, c)
  | n + 1, s, c =>
    if hold s then (s, c)
    else
      match c.next s.launcher with
      | (l, c) :: _ => callLoop hold n { s with launcher := l } c
      | [] =>
        if c.isOver then (s, c)
        else
          match earliest [s.next?, c.alarm? s.launcher] with
          | some t => callLoop hold n (s.happen t) c
          | none => (s, c)

/-- More than the steps of any call. -/
def callSteps : Nat := 20

/-- A call goes on until it returns, or until something holds. -/
def carryOn (hold : Session → Bool) (s : Session) (c : Call) : Session × Call :=
  callLoop hold (callSteps + s.remaining) s c

/-- A call goes on until it returns. -/
def run (s : Session) (c : Call) : Session × Call := s.carryOn (fun _ => false) c

/-- Begins the cleanup and starts the server.  What was begun before gives way. -/
def start (s : Session) : Session × Except LauncherError Unit :=
  let before := s.launcher
  let (l, r) := before.start s.world
  let abandoned := if before.config.cache.clearOnStart && before.cleanup.any (·.isPending) then s.abandoned + 1
    else s.abandoned
  let former := match r with
    | .ok () => s.former ++ (before.server.map (·.dropHandle)).toList
    | .error _ => s.former
  ({ s with launcher := l, abandoned, former }, r)

/-- Opens the window; no result if the call never returns. -/
def openWindow (s : Session) : Session × Option (Except LauncherError String) :=
  match s.run (.opening .begun) with
  | (s, .opening (.returned r)) => (s, some r)
  | (s, _) => (s, none)

/-- Stops the server; no result if the call never returns. -/
def stop (s : Session) : Session × Option (Option Outcome) :=
  match s.run (.stop .begun) with
  | (s, .stop (.returned o)) => (s, some o)
  | (s, _) => (s, none)

/-- Stops the server and joins the cleanup; no result if the call never returns. -/
def shutdown (s : Session) : Session × Option (Except LauncherError (Option Cache.Report)) :=
  match s.run (.shutdown .begun) with
  | (s, .shutdown (.returned r)) => (s, some r)
  | (s, _) => (s, none)

/-- Waits until the server ends; no result if the call never returns. -/
def waitServerExit (s : Session) : Session × Option (Except LauncherError Outcome) :=
  match s.run (.exit none) with
  | (s, .exit r) => (s, r)
  | (s, _) => (s, none)

/-- All that runs in the background is dropped; processes go on. -/
def dropBackground (s : Session) : Session :=
  let cleanup := s.launcher.cleanup.map fun c =>
    match c.stage with
    | .pending => { c with stage := .cancelled }
    | _ => c
  { s with
    launcher := { s.launcher with cleanup, server := s.launcher.server.map (·.dropBackground) }
    former := s.former.map (·.dropBackground)
    abandoned := 0 }

/-- The session with its server changed. -/
def withServer (s : Session) (f : Running → Running) : Session :=
  { s with launcher := { s.launcher with server := s.launcher.server.map f } }

/-- What a stream of the server gave up to its end and what was not taken before. -/
def takeStream (s : Session) (stream : Stream) : Session × List UInt8 :=
  let s := s.wait fun s => s.launcher.server.all (·.isAtEnd stream)
  match s.launcher.server with
  | some r =>
    let (bytes, r) := r.take stream
    (s.withServer fun _ => r, bytes)
  | none => (s, [])

end Session

end AppLauncher.Launcher
