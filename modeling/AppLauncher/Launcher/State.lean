import AppLauncher.Cache.Clear
import AppLauncher.Client.Script
import AppLauncher.Server.World
import AppLauncher.Window.Host

/-!
# The launcher

What a launcher holds: the task that clears the cache, whose result is handed over once, and the server.  Calls to
the window and lines of the log are kept in order.
-/

namespace AppLauncher.Launcher

open AppLauncher.Server

/-- How far a cleanup of the cache has come. -/
inductive Stage
  | pending
  | finished (result : Except LauncherError Cache.Report)
  /-- Dropped before it had begun. -/
  | cancelled

/-- A cleanup of the cache that runs in the background, with its number among the background tasks. -/
structure Cleanup where
  number : Nat
  stage : Stage := .pending

/-- The fault of a background task that was dropped. -/
def cancelled (number : Nat) : LauncherError := .taskFailed ("task " ++ toString number ++ " was cancelled")

/-- What those who join the cleanup get; until it is over they wait. -/
def Cleanup.result? (c : Cleanup) : Option (Except LauncherError Cache.Report) :=
  match c.stage with
  | .pending => none
  | .finished r => some r
  | .cancelled => some (.error (cancelled c.number))

/-- Whether a cleanup is still to run. -/
def Cleanup.isPending (c : Cleanup) : Bool := c.result?.isNone

/-- A launcher, the window it talks to, and what it has done. -/
structure State where
  config : Config
  window : Window.Host := {}
  /-- The time in milliseconds. -/
  clock : Nat := 0
  /-- From when on connections to the server's address succeed. -/
  accepting : Option Nat := none
  /-- How many background tasks were begun. -/
  tasks : Nat := 0
  cleanup : Option Cleanup := none
  /-- Whether nobody has asked for the result of the cleanup yet. -/
  unclaimed : Bool := false
  server : Option Running := none
  calls : List Window.Call := []
  log : List Log.Line := []

namespace State

/-- The state with more lines in the log. -/
def say (s : State) (lines : List Log.Line) : State := { s with log := s.log ++ lines }

/-- The state after a call to the window, and the error if the call failed. -/
def ask (s : State) (c : Window.Call) : State × Option LauncherError :=
  ({ s with calls := s.calls ++ [c], log := s.log ++ s.window.lines c }, s.window.answer c)

/-- The probe for the server's readiness. -/
def probe (s : State) : Probe := s.config.readiness.probe s.config.server

/-- The server's URL. -/
def url (s : State) : String := s.config.server.url

/-- The state with a cleanup in the background, if the settings want one. -/
def beginCleanup (s : State) : State :=
  if s.config.cache.clearOnStart then
    { s with
      tasks := s.tasks + 1
      cleanup := some ⟨s.tasks + 1, .pending⟩
      unclaimed := true
      log := s.log ++ [Log.info ("Clearing cache directory " ++ s.config.cache.directory)] }
  else s

/-- How many background tasks a server has: one for each stream and the watcher. -/
def tasksPerServer : Nat := 3

/-- The state with a server that was just started, or with the old one if it cannot be started. -/
def beginServer (w : World) (s : State) : State × Except LauncherError Unit :=
  match spawn s.config.server s.config.readiness.watchedLine w s.clock (Program.launcherPid + 1) with
  | .error e => (s, .error e)
  | .ok (r, lines) =>
    ({ s with server := some r, tasks := s.tasks + tasksPerServer, log := s.log ++ lines }, .ok ())

/-- Begins the cleanup and then starts the server without waiting for the cleanup. -/
def start (w : World) (s : State) : State × Except LauncherError Unit := s.beginCleanup.beginServer w

/-- The scripts for the window, if the settings want them. -/
def clientScript? (s : State) : Option String := if s.config.client.enabled then some Client.initScript else none

/-- What a wait for readiness that began at a time knows by now. -/
def moment (s : State) (since : Nat) : Moment :=
  { elapsed := s.clock - since
    connected := (connection s.probe (s.accepting.map (· - since))).any (· ≤ s.clock - since)
    server := s.server.map (·.view) }

end State

end AppLauncher.Launcher
