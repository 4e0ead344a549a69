import AppLauncher.Fault

/-!
# How a server ended

A process ends with an exit code or by a signal; if waiting for it fails or nobody waits for it, its end stays
unknown.
-/

namespace AppLauncher.Server

/-- The status that a process leaves: its exit code, or the signal that ended it. -/
inductive Status
  | code (n : Int)
  | signal (number : Nat)
  deriving DecidableEq, Repr

namespace Status

/-- What a process leaves that was killed. -/
def killed : Status := signal 9

/-- What a process leaves that wrote to a pipe without a reader. -/
def brokenPipe : Status := signal 13

end Status

/-- How a server ended. -/
inductive Outcome
  | exited (code : Int)
  | terminated
  | unknown (reason : String)
  deriving DecidableEq, Repr

namespace Outcome

/-- The outcome that waiting for a process gives: by its status, or unknown if waiting has failed. -/
def ofWait : Except Fault Status → Outcome
  | .ok (.code n) => exited n
  | .ok (.signal _) => terminated
  | .error f => unknown f.text

/-- The exit code, if there is one. -/
def code? : Outcome → Option Int
  | exited n => some n
  | _ => none

/-- The text of an outcome. -/
def text : Outcome → String
  | exited n => "code " ++ toString n
  | terminated => "no exit code (terminated by signal)"
  | unknown reason => "unknown status (" ++ reason ++ ")"

/-- What a server is said to have ended with when nobody waits for it any more. -/
def unwatched : Outcome := unknown "exit watcher stopped"

end Outcome

end AppLauncher.Server
