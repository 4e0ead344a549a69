import AppLauncher.Launcher.Opening

/-!
# Calls

The calls of a launcher that may wait, as one type, so that any number of them can go on side by side.
-/

namespace AppLauncher.Launcher

open AppLauncher.Server

/-- A call, and how far it has come. -/
inductive Call
  | stop (p : Stop)
  | shutdown (p : Shutdown)
  | opening (p : Opening)
  /-- Waits until the server ends; the window stays as it is. -/
  | exit (result : Option (Except LauncherError Outcome))

namespace Call

/-- The steps of a call that can come next. -/
def next (s : State) : Call → List (State × Call)
  | stop p => ((p.next? s).map fun (s, p) => (s, stop p)).toList
  | shutdown p => ((p.next? s).map fun (s, p) => (s, shutdown p)).toList
  | opening p => (p.next s).map fun (s, p) => (s, opening p)
  | exit none =>
    match s.server with
    | none => [(s, exit (some (.error .notStarted)))]
    | some r => (r.awaited?.map fun o => (s, exit (some (.ok o)))).toList
  | exit (some _) => []

/-- Whether a call has returned. -/
def isOver : Call → Bool
  | stop (.returned _) => true
  | shutdown (.returned _) => true
  | opening (.returned _) => true
  | exit (some _) => true
  | _ => false

/-- The next moment at which a call could go on by time alone. -/
def alarm? (s : State) : Call → Option Nat
  | opening p => p.alarm? s
  | _ => none

end Call

end AppLauncher.Launcher
