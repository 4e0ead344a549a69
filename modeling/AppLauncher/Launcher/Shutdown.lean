import AppLauncher.Launcher.State

/-!
# Stopping the server and joining the cleanup

Calls go on step by step.  A call that waits for something has no next step until that has happened, and a call that
is over has none either.
-/

namespace AppLauncher.Launcher

open AppLauncher.Server

/-- A call that stops the server, if there is one, and waits until it has ended. -/
inductive Stop
  | begun
  | waiting
  | returned (outcome : Option Outcome)

/-- The next step of a stop. -/
def Stop.next? (s : State) : Stop → Option (State × Stop)
  | begun =>
    match s.server with
    | none => some (s, returned none)
    | some r =>
      let (r, lines) := r.askStop
      some ({ s with server := some r }.say lines, waiting)
  | waiting => (s.server.bind (·.awaited?)).map fun o => (s, returned (some o))
  | returned _ => none

/-- Joining the cleanup: only the first to ask for its result gets it, all others get nothing. -/
inductive Join
  | unasked
  | waiting
  | returned (result : Except LauncherError (Option Cache.Report))

/-- The next step of a join. -/
def Join.next? (s : State) : Join → Option (State × Join)
  | unasked => some (if s.unclaimed then ({ s with unclaimed := false }, waiting) else (s, returned (.ok none)))
  | waiting => (s.cleanup.bind (·.result?)).map fun r => (s, returned (r.map some))
  | returned _ => none

/-- The line about a cleanup that failed. -/
def cleanupFailure (e : LauncherError) : Log.Line := Log.error ("Cache cleanup failed: " ++ e.message)

/-- A call that stops the server and then joins the cleanup. -/
inductive Shutdown
  | stopping (s : Stop)
  | joining (j : Join)
  | returned (result : Except LauncherError (Option Cache.Report))

namespace Shutdown

/-- A shutdown that has not done anything yet. -/
def begun : Shutdown := stopping .begun

/-- The next step of a shutdown. -/
def next? (s : State) : Shutdown → Option (State × Shutdown)
  | stopping (.returned o) =>
    let lines := match o with
      | some o => [Log.info ("Server stopped with " ++ o.text)]
      | none => []
    some (s.say lines, joining .unasked)
  | stopping p => (p.next? s).map fun (s, p) => (s, stopping p)
  | joining (.returned r) =>
    let lines := match r with
      | .error e => [cleanupFailure e]
      | .ok _ => []
    some (s.say lines, returned r)
  | joining j => (j.next? s).map fun (s, j) => (s, joining j)
  | returned _ => none

end Shutdown

end AppLauncher.Launcher
