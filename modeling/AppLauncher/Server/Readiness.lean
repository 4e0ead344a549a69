import AppLauncher.Config.Derived
import AppLauncher.Error
import AppLauncher.Log
import AppLauncher.Server.Outcome

/-!
# Readiness

Waiting for the server with a probe.  At each moment of the wait some verdicts are true; the wait ends with one of
them.
-/

namespace AppLauncher.Server

/-- What a wait knows of a server. -/
structure View where
  lineSeen : Bool
  /-- What those who wait for the server's end get by now. -/
  awaited : Option Outcome
  deriving DecidableEq, Repr

/-- A moment of a wait: the milliseconds since its begin, whether a connection has succeeded, and the server if
there is one. -/
structure Moment where
  elapsed : Nat
  connected : Bool
  server : Option View
  deriving DecidableEq, Repr

/-- How a wait ends. -/
abbrev Verdict := Except LauncherError Unit

namespace Moment

/-- Whether so much time has passed. -/
def hasPassed (m : Moment) (d : Duration) : Bool := decide (d.toNanos ≤ m.elapsed * 1000000)

/-- The verdict that the server has ended. -/
def ended (m : Moment) : List Verdict :=
  match m.server.bind (·.awaited) with
  | some o => [.error (.serverExitedEarly o.text)]
  | none => []

/-- The verdict that the time is over. -/
def late (m : Moment) (timeout : Duration) : List Verdict :=
  if m.hasPassed timeout then [.error (.readinessTimeout timeout)] else []

end Moment

/-- The verdicts that are true at a moment. -/
def verdicts (p : Probe) (m : Moment) : List Verdict :=
  match p with
  | .delay wait => if m.hasPassed wait then [.ok ()] else []
  | .port _ _ timeout => (if m.connected then [.ok ()] else []) ++ m.ended ++ m.late timeout
  | .outputLine timeout =>
    match m.server with
    | none => [.error .notStarted]
    | some v => (if v.lineSeen then [.ok ()] else []) ++ m.ended ++ m.late timeout

/-- The line that begins a wait. -/
def announcement (p : Probe) (hasServer : Bool) : Option Log.Line :=
  match p with
  | .delay wait => some (Log.debug ("Waiting " ++ wait.text ++ " before loading the server URL"))
  | .port address _ _ =>
    some (Log.info ("Waiting for server to accept connections on " ++ address ++ "..."))
  | .outputLine _ => if hasServer then some (Log.info "Waiting for server ready line...") else none

/-- The latest moment at which a wait ends, in milliseconds after its begin. -/
def limit (p : Probe) : Nat :=
  match p with
  | .delay wait => wait.toMillisCeil
  | .port _ _ timeout => timeout.toMillisCeil
  | .outputLine timeout => timeout.toMillisCeil

/-! ### Attempts to connect -/

/-- The milliseconds between two attempts. -/
def pause (interval : Duration) : Nat := max 1 interval.toMillisCeil

/-- The number of the first attempt at a moment or later, counted from zero. -/
def attemptAt (interval : Duration) (moment : Nat) : Nat := (moment + pause interval - 1) / pause interval

/-- When the first attempt succeeds, in milliseconds after the begin of the wait, if connections are accepted from
some moment on. -/
def connection (p : Probe) (accepting : Option Nat) : Option Nat :=
  match p, accepting with
  | .port _ interval _, some moment => some (attemptAt interval moment * pause interval)
  | _, _ => none

/-- How many attempts in a row make a line. -/
def attemptsPerLine : Nat := 20

/-- The lines about the attempts of a wait that lasted so long. -/
def attemptLines (p : Probe) (accepting : Option Nat) (elapsed : Nat) : List Log.Line :=
  match p with
  | .port address interval _ =>
    let made := match connection p accepting with
      | some t => if t ≤ elapsed then attemptAt interval t else elapsed / pause interval + 1
      | none => elapsed / pause interval + 1
    let waiting := (List.range (made / attemptsPerLine)).map fun i =>
      Log.debug ("Still waiting for " ++ address ++ " (" ++ toString ((i + 1) * attemptsPerLine) ++ " attempts)")
    match connection p accepting with
    | some t =>
      if t ≤ elapsed then
        waiting ++ [Log.info ("Server ready on " ++ address ++ " after " ++ toString (attemptAt interval t + 1)
          ++ " attempts")]
      else waiting
    | none => waiting
  | _ => []

/-- The first moment of a wait without a server, and its verdict. -/
def verdictAlone (p : Probe) (accepting : Option Nat) : Nat × Option Verdict :=
  let at0 (t : Nat) : Option Verdict :=
    (verdicts p ⟨t, (connection p accepting).any (· ≤ t), none⟩).head?
  match at0 0 with
  | some v => (0, some v)
  | none =>
    let t := match connection p accepting with
      | some c => min c (limit p)
      | none => limit p
    (t, at0 t)

end AppLauncher.Server
