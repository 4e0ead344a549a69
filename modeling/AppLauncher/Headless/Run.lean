import AppLauncher.Launcher.Session
import AppLauncher.Startup

/-!
# Running without a screen

The launcher as a program: it prepares, starts the server, opens a window that is only written about, and waits until
the server ends or somebody interrupts it.  It succeeds however the server ends and whether or not the server became
ready; only a server that cannot be started and a failed cleanup make it fail.
-/

namespace AppLauncher.Headless

open AppLauncher.Launcher AppLauncher.Program AppLauncher.Server AppLauncher.Storage

/-- How a run ends: it returns with a result, or a signal ends it, as only a signal can end one that waits forever. -/
inductive Ending
  | returned (result : Except LauncherError Unit)
  | killed

/-- The number of the signal that interrupts. -/
def interruption : Nat := 2

/-- The signals that do not end a program that does not ask for them. -/
def harmless : List Nat := [0, 13, 17, 18, 19, 20, 21, 22, 23, 28]

/-- The signals to the launcher so far that are not harmless. -/
def signals (s : Session) : List Nat :=
  (s.servers.flatMap (·.signals)).filter fun n => !harmless.contains n

/-- The line about a server that has ended. -/
def endLine (o : Outcome) (uptime : Nat) : Log.Line :=
  Log.info ("Server finished with " ++ o.text ++ " after " ++ toString (uptime / 1000) ++ "s; launcher exiting")

/-- The line about an interruption. -/
def interruptionLine : Log.Line := Log.info "Interrupted, stopping server..."

/-- The end of a run that has waited for its server, and its result. -/
def close (s : State) : Except LauncherError Outcome → State × Except LauncherError Unit
  | .ok o => (s.say [endLine o ((s.server.map (·.supervision.uptime)).getD 0)], .ok ())
  | .error e => (s, .error e)

/-- Waits until the server ends or an interruption comes; the latter stops the server. -/
def waitForEnd (s : Session) : Session × Ending :=
  match s.carryOn (fun s => !(signals s).isEmpty) (.exit none) with
  | (s, .exit (some r)) =>
    let (launcher, result) := close s.launcher r
    ({ s with launcher }, .returned result)
  | (s, _) =>
    if (signals s).head? = some interruption then
      match { s with launcher := s.launcher.say [interruptionLine] }.stop with
      | (s, some _) => (s, .returned (.ok ()))
      | (s, none) => (s, .killed)
    else (s, .killed)

/-- The error with which a run ends once it has opened the window; all others leave it waiting. -/
def fatal? : Except LauncherError String → Option LauncherError
  | .ok _ => none
  | .error e => if e.isFatal then some e else none

/-- A run of a launcher that was just made.  Before the wait for the end every signal that is not harmless ends the
launcher. -/
def run (s : Session) : Session × Ending :=
  match s.start with
  | (s, .error e) => (s, .returned (.error e))
  | (s, .ok ()) =>
    match s.carryOn (fun s => !(signals s).isEmpty) (.opening .begun) with
    | (s, .opening (.returned r)) =>
      match fatal? r with
      | some e => (s, .returned (.error e))
      | none => waitForEnd s
    | (s, _) => (s, .killed)

/-- What the report of an error says line by line. -/
def report (e : LauncherError) : List String :=
  match e.source? with
  | some f => ["Error: " ++ e.message, "", "Caused by:", "    " ++ f.text]
  | none => ["Error: " ++ e.message]

/-- A launcher that has done nothing yet, with a window that is only written about. -/
def begin (config : Config) (world : World) : Session :=
  { launcher := { config, window := Window.headless }, world }

/-- What is left of a run: the exit code if there is one, both streams, and the disk.  What the launcher itself
writes is given line by line, what the server wrote to its standard error as bytes. -/
structure Remains where
  code? : Option Nat
  stdout : List UInt8
  lines : List String
  serverErrors : List UInt8
  disk : Disk

/-- The exit code of a program that could not go on. -/
def brokenCode : Nat := 101

/-- The program: all that it does in an environment. -/
def program (programDirectory : String) (environment : Environment) (stamp : Logs.Stamp) (now : Int) (d : Disk) :
    Remains :=
  let p := Startup.prepare programDirectory environment stamp now d
  match p.target? with
  | .error _ => ⟨some brokenCode, [], p.notes, [], p.disk⟩
  | .ok target =>
    let (s, ending) := run (begin p.config (.ofEnvironment p.disk environment))
    let (code?, reported) := match ending with
      | .returned (.ok ()) => (some 0, [])
      | .returned (.error e) => (some 1, report e)
      | .killed => (none, [])
    let unread (f : Running → Output.Forwarding Output.Capture) : List UInt8 :=
      (s.launcher.server.map fun r => (f r).sink.unread).getD []
    { code?
      stdout := unread (·.stdout)
      lines := p.notes ++ target.shown (Startup.firstLines p.config ++ s.launcher.log) ++ reported
      serverErrors := unread (·.stderr)
      disk := target.write s.launcher.log now s.world.disk }

end AppLauncher.Headless
