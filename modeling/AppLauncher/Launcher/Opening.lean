import AppLauncher.Launcher.Shutdown

/-!
# Opening the window

The window is created and, once the cleanup is over and the server is ready, told to load the server's URL.  A
failed cleanup ends the wait at once and stops the server; a server that does not become ready is shown as an error
in the window, which stays up.
-/

namespace AppLauncher.Launcher

open AppLauncher.Server

/-- A call that opens the window. -/
inductive Opening
  | begun
  /-- The window could not be created, for a reason; everything is shut down. -/
  | givingUp (reason : String) (s : Shutdown)
  /-- The window is there; the cleanup is joined before the wait for readiness begins. -/
  | created (j : Join)
  /-- The wait for the cleanup and for readiness, which began at a time. -/
  | waiting (since : Nat) (j : Join) (verdict : Option Verdict)
  /-- The cleanup has failed; the server is stopped. -/
  | stopping (e : LauncherError) (s : Stop)
  | returned (result : Except LauncherError String)

namespace Opening

/-- The reason that is reported for a window that could not be created. -/
def creationReason : LauncherError → String
  | .window reason => reason
  | e => e.message

/-- The state with the line that begins a wait for readiness. -/
def announce (s : State) : State := s.say (announcement s.probe s.server.isSome).toList

/-- The end of the wait: the URL is loaded, or the error is shown. -/
def finish (s : State) (verdict : Verdict) : State × Opening :=
  match verdict with
  | .ok () =>
    let (s, failure) := (s.say [Log.info ("Loading URL: " ++ s.url)]).ask (.loadUrl s.url)
    (s, returned (match failure with
      | some e => .error e
      | none => .ok s.url))
  | .error e =>
    let (s, failure) := (s.say [Log.error ("Server did not become ready: " ++ e.message)]).ask (.showError e.message)
    (s, returned (.error (failure.getD e)))

/-- The verdicts that a wait can end with by now, each with the lines about the attempts to connect. -/
def verdictSteps (s : State) (since : Nat) (j : Join) : List (State × Opening) :=
  let lines := attemptLines s.probe (s.accepting.map (· - since)) (s.clock - since)
  (verdicts s.probe (s.moment since)).map fun v => (s.say lines, waiting since j (some v))

/-- The steps that can come next.  There are several where the wait could end with several verdicts, or where the
cleanup and readiness are both there. -/
def next (s : State) : Opening → List (State × Opening)
  | begun =>
    let (s, failure) := s.ask (.create (.ofSettings s.config.window))
    match failure with
    | some e =>
      [(s.say [Log.error ("Failed to create window: " ++ e.message)], givingUp (creationReason e) .begun)]
    | none => [(s, created .unasked)]
  | givingUp reason (.returned _) => [(s, returned (.error (.windowCreate reason)))]
  | givingUp reason p => ((p.next? s).map fun (s, p) => (s, givingUp reason p)).toList
  | created (.returned (.error e)) => [(s.say [cleanupFailure e], stopping e .begun)]
  | created (.returned (.ok r)) => [(announce s, waiting s.clock (.returned (.ok r)) none)]
  | created j =>
    match j.next? s with
    | some (s, j) => [(s, created j)]
    | none => [(announce s, waiting s.clock j none)]
  | waiting _ (.returned (.error e)) _ => [(s.say [cleanupFailure e], stopping e .begun)]
  | waiting _ (.returned (.ok _)) (some v) => [finish s v]
  | waiting since j (some v) => ((j.next? s).map fun (s, j) => (s, waiting since j (some v))).toList
  | waiting since j none =>
    ((j.next? s).map fun (s, j) => (s, waiting since j none)).toList ++ verdictSteps s since j
  | stopping e (.returned _) => [(s, returned (.error e))]
  | stopping e p => ((p.next? s).map fun (s, p) => (s, stopping e p)).toList
  | returned _ => []

/-- The next moment at which the wait could end by time alone. -/
def alarm? (s : State) : Opening → Option Nat
  | waiting since _ none =>
    earliest [some (since + limit s.probe), (connection s.probe (s.accepting.map (· - since))).map (since + ·)]
  | _ => none

end Opening

end AppLauncher.Launcher
